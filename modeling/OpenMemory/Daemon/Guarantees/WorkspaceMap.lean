import OpenMemory.Daemon.ProductSpaces
import OpenMemory.Merge.Fixture

/-!
# The map of workspaces

There is one row for a profile and a path, and it is for one platform and one normalizer. So the
project of a workspace is that of the last mapping of its profile and path, if that mapping was
for exactly this workspace. Mapping a workspace leaves the workspaces of other profiles and paths
alone, and unmaps those of its own profile and path that are for another platform or normalizer.
-/

namespace OpenMemory.Daemon

open Foundation
open Merge (Blake3)

theorem WorkspacePathKey.ext {left right : WorkspacePathKey} (path : left.path = right.path)
    (platform : left.platform = right.platform)
    (version : left.normalizerVersion = right.normalizerVersion) : left = right := by
  cases left
  cases right
  cases path
  cases platform
  cases version
  rfl

namespace ProductSpaces

variable {s t : ProductSpaces}

/-- A workspace that was mapped to a project. -/
structure Mapping where
  profile : String
  workspace : WorkspacePathKey
  project : ProjectId

/-- What a mapping says of a workspace of its profile and path. -/
def Mapping.answer (mapping : Mapping) (workspace : WorkspacePathKey) : Option ProjectId :=
  if mapping.workspace = workspace then some mapping.project else none

def mappingOf (call : Call) (result : Except String Unit) : List Mapping :=
  match call, result with
  | .mapWorkspace profile workspace project _, .ok _ => [⟨profile, workspace, project⟩]
  | _, _ => []

/-- The mappings of a history, in their order. -/
def mappings [Blake3] (s : ProductSpaces) : List (Call × Option String) → List Mapping
  | [] => []
  | entry :: rest =>
    mappingOf entry.1 (s.perform entry.1 entry.2).2 ++ mappings (s.perform entry.1 entry.2).1 rest

/-- A mapping is for a profile and a path. -/
def Mapping.isFor (profile path : String) (mapping : Mapping) : Bool :=
  decide (mapping.profile = profile ∧ mapping.workspace.path = path)

def lastMapping (found : List Mapping) (profile path : String) : Option Mapping :=
  found.reverse.find? (Mapping.isFor profile path)

theorem mappingOf_other {call : Call} (other : ∀ profile workspace project vcsFingerprint,
      call ≠ .mapWorkspace profile workspace project vcsFingerprint) (result : Except String Unit) :
    mappingOf call result = [] := by
  unfold mappingOf
  split
  next => exact absurd rfl (other _ _ _ _)
  next => rfl

theorem lastMapping_append (first last : List Mapping) (profile path : String) :
    lastMapping (first ++ last) profile path =
      (lastMapping last profile path).or (lastMapping first profile path) := by
  rw [lastMapping, List.reverse_append, List.find?_append]
  rfl

theorem projectForWorkspace_of_same (same : t.workspaces = s.workspaces) (profile : String)
    (workspace : WorkspacePathKey) :
    t.projectForWorkspace profile workspace = s.projectForWorkspace profile workspace := by
  rw [projectForWorkspace, projectForWorkspace, same]

section Calls

variable [Blake3]

/-! ## One call -/

/-- The calls that map no workspace leave the mapped ones as they are. -/
theorem workspaces_of_transaction {call : Call} (done : s.transaction call = .ok t)
    (other : ∀ profile workspace project vcsFingerprint,
      call ≠ .mapWorkspace profile workspace project vcsFingerprint) :
    t.workspaces = s.workspaces := by
  cases call with
  | ensureInstallationPrincipal fresh =>
    obtain ⟨⟨next, principal⟩, ran, rfl⟩ := map_eq_ok.mp done
    unfold ProductSpaces.ensureInstallationPrincipal at ran
    split at ran
    next =>
      obtain ⟨rfl, _⟩ := Prod.mk.inj (Except.ok.inj ran)
      rfl
    next =>
      obtain ⟨_, _, ran⟩ := bind_eq_ok.mp ran
      obtain ⟨rfl, _⟩ := Prod.mk.inj (Except.ok.inj ran)
      rfl
  | createTeam label fresh =>
    obtain ⟨⟨next, team⟩, ran, rfl⟩ := map_eq_ok.mp done
    simp only [ProductSpaces.createTeam, bind_eq_ok] at ran
    obtain ⟨_, _, _, _, _, _, ran⟩ := ran
    obtain ⟨rfl, _⟩ := Prod.mk.inj (Except.ok.inj ran)
    rfl
  | grantTeamRole team principal role expiresAt now =>
    obtain ⟨_, _, done⟩ := bind_eq_ok.mp done
    obtain rfl := Except.ok.inj done
    rfl
  | revokeTeamMember team principal =>
    obtain ⟨⟨next, removed⟩, ran, rfl⟩ := map_eq_ok.mp done
    obtain ⟨_, _, ran⟩ := bind_eq_ok.mp ran
    obtain ⟨rfl, _⟩ := Prod.mk.inj (Except.ok.inj ran)
    rfl
  | createProject profile label fresh =>
    obtain ⟨⟨next, project⟩, ran, rfl⟩ := map_eq_ok.mp done
    simp only [ProductSpaces.createProject, bind_eq_ok] at ran
    obtain ⟨_, _, _, _, _, _, ran⟩ := ran
    obtain ⟨rfl, _⟩ := Prod.mk.inj (Except.ok.inj ran)
    rfl
  | mapWorkspace profile workspace project vcsFingerprint =>
    exact absurd rfl (other profile workspace project vcsFingerprint)
  | insertSpace id row =>
    obtain ⟨⟨next, stored⟩, ran, rfl⟩ := map_eq_ok.mp done
    simp only [ProductSpaces.insertSpace, bind_eq_ok] at ran
    obtain ⟨_, _, _, _, _, _, _, _, _, _, _, _, _, _, ran⟩ := ran
    obtain ⟨rfl, _⟩ := Prod.mk.inj (Except.ok.inj ran)
    rfl
  | activateSpace id manifestHash now reread =>
    obtain ⟨_, _, done⟩ := bind_eq_ok.mp done
    obtain ⟨_, _, done⟩ := bind_eq_ok.mp done
    obtain ⟨_, _, done⟩ := bind_eq_ok.mp done
    obtain ⟨_, _, done⟩ := bind_eq_ok.mp done
    obtain rfl := Except.ok.inj done
    rfl

/-- What mapping a workspace makes of the answers. -/
theorem projectForWorkspace_of_map {profile : String} {mapped : WorkspacePathKey}
    {project : ProjectId} {vcsFingerprint : Option String}
    (done : s.mapWorkspace profile mapped project vcsFingerprint = .ok t)
    (other : String) (workspace : WorkspacePathKey) :
    t.projectForWorkspace other workspace =
      if Mapping.isFor other workspace.path ⟨profile, mapped, project⟩ then
        Mapping.answer ⟨profile, mapped, project⟩ workspace
      else s.projectForWorkspace other workspace := by
  simp only [ProductSpaces.mapWorkspace, bind_eq_ok] at done
  obtain ⟨_, _, _, _, _, _, catalog, _, done⟩ := done
  obtain rfl := Except.ok.inj done
  simp only [projectForWorkspace, Table.get?_put, Mapping.isFor, Mapping.answer, decide_eq_true_eq]
  by_cases here : (other, workspace.path) = (profile, mapped.path)
  · obtain ⟨rfl, path⟩ := Prod.mk.inj here
    rw [if_pos here, if_pos ⟨rfl, path.symm⟩]
    by_cases same : mapped = workspace
    · subst same
      simp [Option.filter]
    · have differ : ¬ (mapped.platform = workspace.platform ∧
          mapped.normalizerVersion = workspace.normalizerVersion) := fun both =>
        same (WorkspacePathKey.ext path.symm both.1 both.2)
      simp [Option.filter, differ, same]
  · rw [if_neg here, if_neg fun both => here (Prod.ext both.1.symm both.2.symm)]

/-- What a call makes of the answers: those for the profile and the path of its mapping are of
that mapping, if it maps a workspace and succeeds. -/
theorem projectForWorkspace_perform (s : ProductSpaces) (call : Call) (failure : Option String)
    (profile : String) (workspace : WorkspacePathKey) :
    (s.perform call failure).1.projectForWorkspace profile workspace =
      match lastMapping (mappingOf call (s.perform call failure).2) profile workspace.path with
      | some mapping => mapping.answer workspace
      | none => s.projectForWorkspace profile workspace := by
  by_cases maps : ∃ owner mapped project vcsFingerprint,
      call = .mapWorkspace owner mapped project vcsFingerprint
  · obtain ⟨owner, mapped, project, vcsFingerprint, rfl⟩ := maps
    cases failure with
    | some error => rfl
    | none =>
      unfold perform
      cases ran : s.transaction (.mapWorkspace owner mapped project vcsFingerprint) with
      | error error => rfl
      | ok next =>
        dsimp only [Call.afterCommit]
        rw [projectForWorkspace_of_map ran, mappingOf, lastMapping, List.reverse_singleton,
          List.find?_singleton]
        split
        next => rfl
        next => rfl
  · have other : ∀ profile workspace project vcsFingerprint,
        call ≠ .mapWorkspace profile workspace project vcsFingerprint :=
      fun profile workspace project vcsFingerprint same =>
        maps ⟨profile, workspace, project, vcsFingerprint, same⟩
    rw [mappingOf_other other]
    refine projectForWorkspace_of_same ?_ profile workspace
    unfold perform
    cases failure with
    | some error => rfl
    | none =>
      cases ran : s.transaction call with
      | error error => rfl
      | ok next =>
        have same := workspaces_of_transaction ran other
        cases call.afterCommit with
        | some error => exact same
        | none => exact same

/-! ## A history -/

theorem projectForWorkspace_history (s : ProductSpaces) (calls : List (Call × Option String))
    (profile : String) (workspace : WorkspacePathKey) :
    (s.history calls).projectForWorkspace profile workspace =
      match lastMapping (mappings s calls) profile workspace.path with
      | some mapping => mapping.answer workspace
      | none => s.projectForWorkspace profile workspace := by
  induction calls generalizing s with
  | nil => rfl
  | cons entry rest ih =>
    have later := ih (s.perform entry.1 entry.2).1
    rw [projectForWorkspace_perform] at later
    rw [mappings, lastMapping_append]
    refine later.trans ?_
    cases lastMapping (mappings (s.perform entry.1 entry.2).1 rest) profile workspace.path with
    | some mapping => rfl
    | none => rfl

/-- **The map of workspaces.** After any history the project of a workspace is that of the last
mapping of its profile and path, if that was for exactly this workspace, and there is none
otherwise. A mapping that succeeds decides the answers for its profile and path, and no other
answer. -/
theorem workspace_mapped (calls : List (Call × Option String)) (profile : String)
    (workspace : WorkspacePathKey) :
    (empty.history calls).projectForWorkspace profile workspace =
        ((lastMapping (mappings empty calls) profile workspace.path).bind fun mapping =>
          mapping.answer workspace) ∧
    ∀ owner mapped project vcsFingerprint t,
      (empty.history calls).mapWorkspace owner mapped project vcsFingerprint = .ok t →
        t.projectForWorkspace profile workspace =
          if owner = profile ∧ mapped.path = workspace.path then
            if mapped = workspace then some project else none
          else (empty.history calls).projectForWorkspace profile workspace := by
  refine ⟨?_, fun owner mapped project vcsFingerprint t done => ?_⟩
  · rw [projectForWorkspace_history]
    cases lastMapping (mappings empty calls) profile workspace.path with
    | some mapping => rfl
    | none => rfl
  · rw [projectForWorkspace_of_map done]
    simp only [Mapping.isFor, Mapping.answer, decide_eq_true_eq]

end Calls

/-! ## One path on two platforms -/

namespace OnePath

open Merge.Fixture

abbrev onLinux : WorkspacePathKey :=
  ⟨.linux, 1, "/work", by decide, by decide, by decide, by decide⟩

abbrev onMacOs : WorkspacePathKey :=
  ⟨.macOs, 1, "/work", by decide, by decide, by decide, by decide⟩

/-- A project is made, and the path is mapped to it for two platforms. -/
abbrev calls : List (Call × Option String) :=
  [(.createProject "default" "Project" (uuid7 1), none),
    (.mapWorkspace "default" onLinux (uuid7 1) none, none),
    (.mapWorkspace "default" onMacOs (uuid7 1) none, none)]

end OnePath

open Merge.Fixture OnePath in
/-- The second mapping changes the answer for the workspace of the first. -/
theorem workspace_unmapped :
    ¬ ∀ (calls : List (Call × Option String)) (profile : String) (workspace : WorkspacePathKey),
      (empty.history calls).projectForWorkspace profile workspace =
        (((mappings empty calls).reverse.find? fun mapping =>
          mapping.profile = profile ∧ mapping.workspace = workspace).map Mapping.project) := by
  intro mapped
  have answered := mapped calls "default" onLinux
  revert answered
  decide +kernel

end ProductSpaces

end OpenMemory.Daemon
