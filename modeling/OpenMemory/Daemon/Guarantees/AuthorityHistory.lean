import OpenMemory.Daemon.ProductSpaces
import OpenMemory.Merge.Fixture

/-!
# Authority snapshots over a history

The catalog generation only rises, and it rises with every call that changes a team, a
membership or the row of a space. Between two states with the same generation, these are the
same, and no principal is gone; so two snapshots of a history that are equal are taken in states
that give the principal the same role and the space the same row. The other generations of a
snapshot, of which one starts anew when a membership is granted again, are not needed for this.

A call that fails changes nothing, but for one that fails after its commit.
-/

namespace OpenMemory.Daemon

open Foundation
open OpenMemory.Graph (AuthoritySnapshot)
open Merge (Blake3 CollisionFree)

/-! ## What is hashed -/

/-- What `AuthoritySnapshot::from_generations` hashes. -/
def authorityBytes (version : UInt16) (generations : List UInt64) : Bytes :=
  utf8 "openmemory/authority-snapshot/v1" ++ leBytes 2 version.toNat ++
    leBytes 8 generations.length ++ generations.flatMap fun generation =>
      leBytes 8 generation.toNat

theorem selfDelimiting_generation :
    SelfDelimiting fun generation : UInt64 => leBytes 8 generation.toNat := by
  refine SelfDelimitingOn.comap (selfDelimiting_leBytes 8) UInt64.toNat ?_ ?_
  · intro generation _
    exact generation.toNat_lt
  · intro left right _ _ same
    exact UInt64.toNat_inj.mp same

theorem authorityBytes_injective (version : UInt16) :
    Function.Injective (authorityBytes version) := by
  intro left right same
  simp only [authorityBytes, List.append_assoc, List.append_cancel_left_eq] at same
  obtain ⟨_, tails⟩ := List.append_inj same (by simp)
  refine SelfDelimitingOn.flatMap_injective selfDelimiting_generation (fun generation => ?_) tails
  intro nothing
  have length := congrArg List.length nothing
  simp at length

/-- The generations that `authority_snapshot_for` reads of a catalog. -/
def authorityGenerations (catalog : Catalog) (principal : String) (space : CatalogSpace)
    (now : Int64) : Except AuthorityError (List UInt64) := do
  let principalGeneration ← orRefuse (catalog.answer (.principalGeneration principal))
    (.product "principal is not active")
  let generations := [catalog.credentialGeneration, catalog.catalogGeneration,
    space.catalogGeneration, principalGeneration]
  match space.owner with
  | .user _ => .ok generations
  | .team team => do
      let teamGeneration ← orRefuse (catalog.answer (.teamGeneration team))
        (.product "team is not active")
      let membershipGeneration ← orRefuse
        (catalog.answer (.membershipGeneration team principal now))
        (.product "membership is absent")
      .ok (generations ++ [teamGeneration, membershipGeneration])

section Answers

variable {α β : Type} {catalog : Catalog}

theorem answeredBy_askCatalog (query : Query) (next : query.Answer → CatalogReading β) :
    (askCatalog query >>= next).run.answeredBy catalog.answer =
      (next (catalog.answer query)).run.answeredBy catalog.answer := rfl

theorem answeredBy_present (value : Option α) (error : AuthorityError)
    (next : α → CatalogReading β) :
    (present value error >>= next).run.answeredBy catalog.answer =
      (orRefuse value error).bind fun found => (next found).run.answeredBy catalog.answer := by
  cases value with
  | none => rfl
  | some found => rfl

end Answers

theorem authoritySnapshotFor_eq [Blake3] (catalog : Catalog) (principal : String)
    (space : CatalogSpace) (now : Int64) :
    (authoritySnapshotFor principal space now).run.answeredBy catalog.answer =
      (authorityGenerations catalog principal space now).map (.fromGenerations 1) := by
  unfold authoritySnapshotFor authorityGenerations
  rw [answeredBy_askCatalog, answeredBy_present]
  cases catalog.answer (.principalGeneration principal) with
  | none => rfl
  | some principalGeneration =>
    cases space.owner with
    | user owner => rfl
    | team team =>
      show ((askCatalog (.teamGeneration team)) >>= _ : CatalogReading _).run.answeredBy
        catalog.answer = _
      rw [answeredBy_askCatalog, answeredBy_present]
      cases foundTeam : catalog.answer (.teamGeneration team) with
      | none =>
        simp only [foundTeam, orRefuse]
        rfl
      | some teamGeneration =>
        show ((askCatalog (.membershipGeneration team principal now)) >>= _ :
          CatalogReading _).run.answeredBy catalog.answer = _
        rw [answeredBy_askCatalog, answeredBy_present]
        cases foundMember : catalog.answer (.membershipGeneration team principal now) with
        | none =>
          simp only [foundTeam, foundMember, orRefuse]
          rfl
        | some membershipGeneration =>
          simp only [foundTeam, foundMember, orRefuse]
          rfl

/-- What `role_for` reads of a catalog. -/
def roleRead (catalog : Catalog) (principal : String) (space : CatalogSpace) (now : Int64) :
    Option SpaceRole :=
  if (catalog.principals.get? principal).any Principal.active then
    match space.owner with
    | .user owner => if owner = principal then some .maintainer else none
    | .team team => catalog.answer (.membershipRole team principal now)
  else none

theorem roleFor_eq (catalog : Catalog) (principal : String) (space : CatalogSpace) (now : Int64) :
    (roleFor principal space now).run.answeredBy catalog.answer =
      .ok (roleRead catalog principal space now) := by
  unfold roleFor roleRead
  rw [answeredBy_askCatalog]
  cases active : (catalog.principals.get? principal).any Principal.active with
  | false =>
    rw [show catalog.answer (.principalActive principal) = false from active]
    rfl
  | true =>
    rw [show catalog.answer (.principalActive principal) = true from active]
    cases space.owner with
    | user owner => rfl
    | team team => rfl

variable {generations : List UInt64} {next : Catalog}

section Readings

variable {catalog : Catalog} {principal : String} {space : CatalogSpace} {now : Int64}

theorem principal_of_generations
    (read : authorityGenerations catalog principal space now = .ok generations) :
    ∃ row, catalog.principals.get? principal = some row ∧ row.active = true := by
  obtain ⟨generation, found, _⟩ := bind_eq_ok.mp read
  obtain ⟨row, kept, _⟩ := Option.map_eq_some_iff.mp (orRefuse_eq_ok.mp found)
  exact ⟨row, Option.filter_eq_some_iff.mp kept⟩

theorem catalog_of_generations
    (read : authorityGenerations catalog principal space now = .ok generations) :
    generations[1]? = some catalog.catalogGeneration := by
  obtain ⟨generation, _, read⟩ := bind_eq_ok.mp read
  cases owner : space.owner with
  | user _ =>
    simp only [owner] at read
    obtain rfl := Except.ok.inj read
    rfl
  | team team =>
    simp only [owner] at read
    obtain ⟨_, _, read⟩ := bind_eq_ok.mp read
    obtain ⟨_, _, read⟩ := bind_eq_ok.mp read
    obtain rfl := Except.ok.inj read
    rfl

/-- Who has a role is given a snapshot. -/
theorem generations_of_role {role : SpaceRole}
    (held : roleRead catalog principal space now = some role) :
    ∃ generations, authorityGenerations catalog principal space now = .ok generations := by
  unfold roleRead at held
  split at held
  next active =>
    obtain ⟨row, found, isActive⟩ := (Option.any_eq_true _ _).mp active
    have generation : catalog.answer (.principalGeneration principal) = some row.generation := by
      show ((catalog.principals.get? principal).filter Principal.active).map _ = _
      rw [found, Option.filter_some_pos isActive]
      rfl
    unfold authorityGenerations
    cases owner : space.owner with
    | user _ =>
      rw [generation]
      exact ⟨_, rfl⟩
    | team team =>
      simp only [owner] at held
      obtain ⟨member, kept, _⟩ := Option.map_eq_some_iff.mp held
      obtain ⟨foundMember, both⟩ := Option.filter_eq_some_iff.mp kept
      rw [Bool.and_eq_true] at both
      obtain ⟨teamRow, foundTeam, teamActive⟩ := (Option.any_eq_true _ _).mp both.1
      have teamGeneration : catalog.answer (.teamGeneration team) =
          some teamRow.authorityGeneration := by
        show ((catalog.teams.get? team).filter Team.active).map _ = _
        rw [foundTeam, Option.filter_some_pos teamActive]
        rfl
      have membershipGeneration : catalog.answer (.membershipGeneration team principal now) =
          some member.authorityGeneration := by
        show ((catalog.memberships.get? (team, principal)).filter _).map _ = _
        simp only [foundMember, Option.filter, both.2, if_true]
        rfl
      simp only [generation, teamGeneration, membershipGeneration]
      exact ⟨_, rfl⟩
  next => cases held

end Readings

/-! ## What calls leave as it is -/

namespace ProductSpaces

variable {s t u : ProductSpaces}

/-- Teams, memberships and spaces are the same, and no principal is gone. -/
structure Still (s t : ProductSpaces) : Prop where
  teams : t.catalog.teams = s.catalog.teams
  memberships : t.catalog.memberships = s.catalog.memberships
  spaces : t.spaces = s.spaces
  principals : ∀ principal row, s.catalog.principals.get? principal = some row →
    t.catalog.principals.get? principal = some row

/-- The catalog generation does not fall, and where it stays the authority stands still. -/
structure Moves (s t : ProductSpaces) : Prop where
  rises : s.catalog.catalogGeneration ≤ t.catalog.catalogGeneration
  still : s.catalog.catalogGeneration = t.catalog.catalogGeneration → Still s t

theorem Still.refl (s : ProductSpaces) : Still s s := ⟨rfl, rfl, rfl, fun _ _ found => found⟩

theorem Still.trans (first : Still s t) (second : Still t u) : Still s u where
  teams := second.teams.trans first.teams
  memberships := second.memberships.trans first.memberships
  spaces := second.spaces.trans first.spaces
  principals := fun principal row found =>
    second.principals principal row (first.principals principal row found)

theorem Moves.refl (s : ProductSpaces) : Moves s s := ⟨UInt64.le_refl _, fun _ => .refl s⟩

theorem Moves.trans (first : Moves s t) (second : Moves t u) : Moves s u where
  rises := UInt64.le_trans first.rises second.rises
  still := fun same => by
    have middle : s.catalog.catalogGeneration = t.catalog.catalogGeneration :=
      UInt64.le_antisymm first.rises (same ▸ second.rises)
    exact (first.still middle).trans (second.still (middle.symm.trans same))

theorem Moves.of_lt (rises : s.catalog.catalogGeneration < t.catalog.catalogGeneration) :
    Moves s t :=
  ⟨UInt64.le_of_lt rises, fun same => absurd same (UInt64.ne_of_lt rises)⟩

variable {catalog : Catalog}

theorem lt_of_bump (bumped : catalog.bumpCatalogGeneration = .ok next) :
    catalog.catalogGeneration < next.catalogGeneration := by
  unfold Catalog.bumpCatalogGeneration at bumped
  split at bumped
  next room =>
    obtain rfl := Except.ok.inj bumped
    rw [UInt64.lt_iff_toNat_lt]
    simp only [UInt64.toNat_add, UInt64.toNat_one]
    omega
  next => cases bumped

theorem generation_of_bumpTeam {team : String} (bumped : catalog.bumpTeam team = .ok next) :
    next.catalogGeneration = catalog.catalogGeneration := by
  unfold Catalog.bumpTeam at bumped
  split at bumped
  next => rw [Except.ok.inj bumped]
  next =>
    obtain ⟨_, _, bumped⟩ := bind_eq_ok.mp bumped
    obtain rfl := Except.ok.inj bumped
    rfl

/-- Both generations of a change of membership. -/
theorem lt_of_advance {team : String} {memberships : Table (String × String) Membership}
    (advanced : ({ catalog with memberships }.bumpTeam team >>= fun bumped =>
      bumped.bumpCatalogGeneration) = .ok next) :
    catalog.catalogGeneration < next.catalogGeneration := by
  obtain ⟨middle, team, bumped⟩ := bind_eq_ok.mp advanced
  have same := generation_of_bumpTeam team
  exact same ▸ lt_of_bump bumped

theorem lt_of_grant {team principal : String} {role : SpaceRole} {expiresAt : Option Int64}
    {now : Int64}
    (granted : catalog.grantTeamRole team principal role expiresAt now = .ok next) :
    catalog.catalogGeneration < next.catalogGeneration := by
  simp only [Catalog.grantTeamRole, bind_eq_ok] at granted
  obtain ⟨_, _, _, _, _, _, _, _, granted⟩ := granted
  split at granted
  next =>
    obtain ⟨_, _, granted⟩ := bind_eq_ok.mp granted
    exact lt_of_advance granted
  next =>
    obtain ⟨_, _, granted⟩ := bind_eq_ok.mp granted
    exact lt_of_advance granted

theorem moved_of_revoke {team principal : String} {removed : Bool}
    (revoked : catalog.revokeTeamMember team principal = .ok (next, removed)) :
    next = catalog ∨ catalog.catalogGeneration < next.catalogGeneration := by
  unfold Catalog.revokeTeamMember at revoked
  split at revoked
  next =>
    obtain ⟨rfl, _⟩ := Prod.mk.inj (Except.ok.inj revoked)
    exact .inl rfl
  next =>
    obtain ⟨advanced, team, revoked⟩ := bind_eq_ok.mp revoked
    obtain ⟨bumped, generation, revoked⟩ := bind_eq_ok.mp revoked
    obtain ⟨rfl, _⟩ := Prod.mk.inj (Except.ok.inj revoked)
    have same := generation_of_bumpTeam team
    exact .inr (same ▸ lt_of_bump generation)

theorem Moves.ensureInstallationPrincipal {fresh : SpaceId} {principal : String}
    (done : s.ensureInstallationPrincipal fresh = .ok (t, principal)) : Moves s t := by
  unfold ProductSpaces.ensureInstallationPrincipal at done
  split at done
  next =>
    obtain ⟨rfl, _⟩ := Prod.mk.inj (Except.ok.inj done)
    exact .refl s
  next =>
    obtain ⟨principals, inserted, done⟩ := bind_eq_ok.mp done
    obtain ⟨rfl, _⟩ := Prod.mk.inj (Except.ok.inj done)
    refine ⟨UInt64.le_refl _, fun _ => ⟨rfl, rfl, rfl, fun other row found => ?_⟩⟩
    have apart : other ≠ "local:" ++ fresh.toText := by
      rintro rfl
      rw [Table.absent_of_insert inserted] at found
      cases found
    exact (Table.get?_insert_of_ne inserted apart).trans found

theorem Moves.activateSpace {id : SpaceId} {manifestHash : String} {now : Int64}
    (done : s.activateSpace id manifestHash now = .ok t) : Moves s t := by
  unfold ProductSpaces.activateSpace at done
  obtain ⟨_, _, done⟩ := bind_eq_ok.mp done
  obtain ⟨catalog, bumped, done⟩ := bind_eq_ok.mp done
  obtain ⟨_, _, done⟩ := bind_eq_ok.mp done
  obtain ⟨_, _, done⟩ := bind_eq_ok.mp done
  obtain rfl := Except.ok.inj done
  exact .of_lt (lt_of_bump bumped)

theorem Moves.insertSpace {id : SpaceId} {row stored : MemorySpace}
    (done : s.insertSpace id row = .ok (t, stored)) : Moves s t := by
  unfold ProductSpaces.insertSpace at done
  obtain ⟨_, _, done⟩ := bind_eq_ok.mp done
  obtain ⟨_, _, done⟩ := bind_eq_ok.mp done
  obtain ⟨catalog, bumped, done⟩ := bind_eq_ok.mp done
  obtain ⟨_, _, done⟩ := bind_eq_ok.mp done
  obtain ⟨_, _, done⟩ := bind_eq_ok.mp done
  obtain ⟨_, _, done⟩ := bind_eq_ok.mp done
  obtain ⟨_, _, done⟩ := bind_eq_ok.mp done
  obtain ⟨rfl, _⟩ := Prod.mk.inj (Except.ok.inj done)
  exact .of_lt (lt_of_bump bumped)

theorem Moves.mapWorkspace [Blake3] {profile : String} {workspace : WorkspacePathKey}
    {project : ProjectId} {vcsFingerprint : Option String}
    (done : s.mapWorkspace profile workspace project vcsFingerprint = .ok t) : Moves s t := by
  simp only [ProductSpaces.mapWorkspace, bind_eq_ok] at done
  obtain ⟨_, _, _, _, _, _, catalog, bumped, done⟩ := done
  obtain rfl := Except.ok.inj done
  exact .of_lt (lt_of_bump bumped)

theorem Moves.transaction [Blake3] {call : Call} (done : s.transaction call = .ok t) :
    Moves s t := by
  cases call with
  | ensureInstallationPrincipal fresh =>
    obtain ⟨⟨next, principal⟩, ran, rfl⟩ := map_eq_ok.mp done
    exact .ensureInstallationPrincipal ran
  | createTeam label fresh =>
    obtain ⟨⟨next, team⟩, ran, rfl⟩ := map_eq_ok.mp done
    unfold ProductSpaces.createTeam at ran
    obtain ⟨_, _, ran⟩ := bind_eq_ok.mp ran
    obtain ⟨teams, _, ran⟩ := bind_eq_ok.mp ran
    obtain ⟨catalog, bumped, ran⟩ := bind_eq_ok.mp ran
    obtain ⟨rfl, _⟩ := Prod.mk.inj (Except.ok.inj ran)
    have rises := lt_of_bump bumped
    exact .of_lt rises
  | grantTeamRole team principal role expiresAt now =>
    obtain ⟨catalog, granted, done⟩ := bind_eq_ok.mp done
    obtain rfl := Except.ok.inj done
    exact .of_lt (lt_of_grant granted)
  | revokeTeamMember team principal =>
    obtain ⟨⟨next, removed⟩, ran, rfl⟩ := map_eq_ok.mp done
    obtain ⟨⟨catalog, _⟩, revoked, ran⟩ := bind_eq_ok.mp ran
    obtain ⟨rfl, rfl⟩ := Prod.mk.inj (Except.ok.inj ran)
    rcases moved_of_revoke revoked with rfl | rises
    · exact .refl s
    · exact .of_lt rises
  | createProject profile label fresh =>
    obtain ⟨⟨next, project⟩, ran, rfl⟩ := map_eq_ok.mp done
    unfold ProductSpaces.createProject at ran
    obtain ⟨_, _, ran⟩ := bind_eq_ok.mp ran
    obtain ⟨projects, _, ran⟩ := bind_eq_ok.mp ran
    obtain ⟨catalog, bumped, ran⟩ := bind_eq_ok.mp ran
    obtain ⟨rfl, _⟩ := Prod.mk.inj (Except.ok.inj ran)
    exact .of_lt (lt_of_bump bumped)
  | mapWorkspace profile workspace project vcsFingerprint => exact .mapWorkspace done
  | insertSpace id row =>
    obtain ⟨⟨next, stored⟩, ran, rfl⟩ := map_eq_ok.mp done
    exact .insertSpace ran
  | activateSpace id manifestHash now reread => exact .activateSpace done

/-- A call yields the store of its transaction, or the one before. -/
theorem perform_cases [Blake3] (s : ProductSpaces) (call : Call) (failure : Option String) :
    (s.perform call failure).1 = s ∨ s.transaction call = .ok (s.perform call failure).1 := by
  unfold perform
  split
  next => exact .inl rfl
  split
  next => exact .inl rfl
  next next ran =>
    split
    next => exact .inr ran
    next => exact .inr ran

theorem Moves.history [Blake3] (s : ProductSpaces) (calls : List (Call × Option String)) :
    Moves s (s.history calls) := by
  induction calls generalizing s with
  | nil => exact .refl s
  | cons entry rest ih =>
    refine Moves.trans ?_ (ih (s.perform entry.1 entry.2).1)
    rcases perform_cases s entry.1 entry.2 with same | ran
    · rw [same]
      exact .refl s
    · exact .transaction ran

/-- A call that fails before its commit changes nothing. -/
theorem perform_unchanged [Blake3] {call : Call} {failure : Option String} {error : String}
    (fails : (s.perform call failure).2 = .error error) (committed : call.afterCommit = none) :
    (s.perform call failure).1 = s := by
  unfold perform at fails ⊢
  split
  next => rfl
  split
  next => rfl
  next next ran =>
    rw [ran, committed] at fails
    cases fails

/-! ## Equal snapshots -/

/-- The strings hashed for a snapshot. -/
def hashed (s : ProductSpaces) (principal : String) (id : SpaceId) (row : MemorySpace)
    (now : Int64) : Set Bytes :=
  { string | ∃ generations, authorityGenerations s.catalog principal (row.toCatalog id) now =
    .ok generations ∧ string = authorityBytes 1 generations }

section Equal

variable [Blake3] {principal : String} {id : SpaceId} {row row' : MemorySpace} {now : Int64}

theorem generations_of_snapshot {snapshot : AuthoritySnapshot}
    (answered : s.snapshotAnswer principal id row now = .ok snapshot) :
    ∃ generations, authorityGenerations s.catalog principal (row.toCatalog id) now =
      .ok generations ∧ snapshot.digest = Blake3.hash (authorityBytes 1 generations) := by
  rw [snapshotAnswer, authoritySnapshotFor_eq] at answered
  obtain ⟨generations, read, rfl⟩ := map_eq_ok.mp answered
  exact ⟨generations, read, rfl⟩

theorem snapshot_of_generations
    (read : authorityGenerations s.catalog principal (row.toCatalog id) now = .ok generations) :
    s.snapshotAnswer principal id row now = .ok (.fromGenerations 1 generations) := by
  rw [snapshotAnswer, authoritySnapshotFor_eq, read]
  rfl

/-- Who is not known has no snapshot. -/
theorem snapshot_of_unknown (unknown : s.catalog.principals.get? principal = none) :
    s.snapshotAnswer principal id row now = .error (.product "principal is not active") := by
  have missing : s.catalog.answer (.principalGeneration principal) = none := by
    show ((s.catalog.principals.get? principal).filter Principal.active).map _ = none
    rw [unknown]
    rfl
  rw [snapshotAnswer, authoritySnapshotFor_eq, authorityGenerations, missing]
  rfl

/-- One snapshot in two states: nothing the authority depends on has changed between them. -/
theorem still_of_snapshot {snapshot : AuthoritySnapshot} (moves : Moves s t)
    (free : CollisionFree (s.hashed principal id row now ∪ t.hashed principal id row' now))
    (first : s.snapshotAnswer principal id row now = .ok snapshot)
    (last : t.snapshotAnswer principal id row' now = .ok snapshot) : Still s t := by
  obtain ⟨generations, read, digest⟩ := generations_of_snapshot first
  obtain ⟨generations', read', digest'⟩ := generations_of_snapshot last
  have same : authorityBytes 1 generations = authorityBytes 1 generations' :=
    free (.inl ⟨generations, read, rfl⟩) (.inr ⟨generations', read', rfl⟩)
      (digest.symm.trans digest')
  obtain rfl := authorityBytes_injective 1 same
  refine moves.still (Option.some.inj ?_)
  exact (catalog_of_generations read).symm.trans (catalog_of_generations read')

omit [Blake3] in
/-- Where nothing has changed, an active principal has the same role. -/
theorem role_of_still {member : Principal} (still : Still s t)
    (found : s.catalog.principals.get? principal = some member) (space : CatalogSpace) :
    roleRead t.catalog principal space now = roleRead s.catalog principal space now := by
  have found' := still.principals principal member found
  unfold roleRead
  rw [found, found']
  cases space.owner with
  | user owner => rfl
  | team team =>
    unfold Catalog.answer
    simp only [still.teams, still.memberships]

end Equal

/-- **Snapshots identify the authority.** In every history a call that fails before its commit
leaves the store as it was, the catalog generation does not fall, and two states that give a
principal different roles on a space give it different snapshots; two states in which the rows
of the space differ do so too, unless the principal has no snapshot in both. -/
theorem authority_identified [Blake3] (first later : List (Call × Option String)) :
    (∀ call failure error,
      ((empty.history first).perform call failure).2 = .error error → call.afterCommit = none →
        ((empty.history first).perform call failure).1 = empty.history first) ∧
    (empty.history first).catalog.catalogGeneration ≤
      ((empty.history first).history later).catalog.catalogGeneration ∧
    ∀ principal id row row' now,
      (empty.history first).spaces.get? id = some row →
      ((empty.history first).history later).spaces.get? id = some row' →
      CollisionFree ((empty.history first).hashed principal id row now ∪
        ((empty.history first).history later).hashed principal id row' now) →
      ((empty.history first).roleAnswer principal id row now ≠
          ((empty.history first).history later).roleAnswer principal id row' now →
        (empty.history first).snapshotAnswer principal id row now ≠
          ((empty.history first).history later).snapshotAnswer principal id row' now) ∧
      (row ≠ row' →
        (empty.history first).snapshotAnswer principal id row now ≠
            ((empty.history first).history later).snapshotAnswer principal id row' now ∨
          ∃ error, (empty.history first).snapshotAnswer principal id row now = .error error ∧
            ((empty.history first).history later).snapshotAnswer principal id row' now =
              .error error) := by
  have moves := Moves.history (empty.history first) later
  generalize empty.history first = s at moves ⊢
  generalize s.history later = t at moves ⊢
  refine ⟨fun _ _ _ fails committed => perform_unchanged fails committed, moves.rises, ?_⟩
  intro principal id row row' now found found' free
  refine ⟨fun differ same => differ ?_, fun differ => ?_⟩
  · rw [roleAnswer, roleAnswer, roleFor_eq, roleFor_eq]
    cases answered : s.snapshotAnswer principal id row now with
    | ok snapshot =>
      have still := still_of_snapshot moves free answered (same.symm.trans answered)
      obtain ⟨generations, read, _⟩ := generations_of_snapshot answered
      obtain ⟨member, isThere, _⟩ := principal_of_generations read
      have sameRow : row' = row := by
        rw [still.spaces, found] at found'
        exact (Option.some.inj found').symm
      rw [sameRow, role_of_still still isThere]
    | error error =>
      have noRole : roleRead s.catalog principal (row.toCatalog id) now = none := by
        by_contra role
        obtain ⟨_, held⟩ := Option.ne_none_iff_exists'.mp role
        obtain ⟨_, read⟩ := generations_of_role held
        rw [snapshot_of_generations read] at answered
        cases answered
      have noRole' : roleRead t.catalog principal (row'.toCatalog id) now = none := by
        by_contra role
        obtain ⟨_, held⟩ := Option.ne_none_iff_exists'.mp role
        obtain ⟨_, read⟩ := generations_of_role held
        rw [answered, snapshot_of_generations read] at same
        cases same
      rw [noRole, noRole']
  · by_contra neither
    rw [not_or, not_not] at neither
    obtain ⟨same, noError⟩ := neither
    cases answered : s.snapshotAnswer principal id row now with
    | ok snapshot =>
      have still := still_of_snapshot moves free answered (same.symm.trans answered)
      rw [still.spaces, found] at found'
      exact differ (Option.some.inj found')
    | error error => exact noError ⟨error, answered, same.symm.trans answered⟩

/-! ## A membership that is granted again -/

namespace Regranted

open Merge.Fixture

abbrev principal : String := "local:" ++ (uuid7 1 : SpaceId).toText

abbrev team : String := "team:" ++ (uuid7 2 : SpaceId).toText

abbrev manifestHash : String := "blake3:" ++ String.ofList (List.replicate 64 '0')

abbrev teamSpace : MemorySpace where
  profile := "default"
  owner := .team team
  context := .global
  rootKey := .space (uuid7 3)
  domainCount := 1
  manifestHash := manifestHash
  state := .creating
  catalogGeneration := 0
  createdAt := 0
  updatedAt := 0

/-- The principal is a reader of the team. -/
abbrev granted : List (Call × Option String) :=
  [(.ensureInstallationPrincipal (uuid7 1), none), (.createTeam "Team" (uuid7 2), none),
    (.insertSpace (uuid7 3) teamSpace, none),
    (.grantTeamRole team principal .reader none 0, none)]

/-- The membership is revoked, and granted again. -/
abbrev again : List (Call × Option String) :=
  [(.revokeTeamMember team principal, none),
    (.grantTeamRole team principal .maintainer none 0, none)]

abbrev before : ProductSpaces := empty.history granted

abbrev after : ProductSpaces := before.history again

abbrev activated : ProductSpaces :=
  before.history [(.activateSpace (uuid7 3) manifestHash 1 none, none)]

theorem read :
    authorityGenerations before.catalog principal (({ teamSpace with catalogGeneration := 2 } :
        MemorySpace).toCatalog (uuid7 3)) 0 = .ok [1, 3, 2, 1, 2, 1] ∧
      authorityGenerations after.catalog principal (({ teamSpace with catalogGeneration := 2 } :
        MemorySpace).toCatalog (uuid7 3)) 0 = .ok [1, 5, 2, 1, 4, 1] :=
  ⟨rfl, rfl⟩

theorem row : before.spaces.get? (uuid7 3) = some { teamSpace with catalogGeneration := 2 } ∧
    after.spaces.get? (uuid7 3) = some { teamSpace with catalogGeneration := 2 } := by
  decide +kernel

end Regranted

open Merge.Fixture Regranted in
/-- The two generations of the membership are the same, the two snapshots are not. -/
theorem regranted_distinct :
    before.snapshotAnswer principal (uuid7 3) { teamSpace with catalogGeneration := 2 } 0 ≠
      after.snapshotAnswer principal (uuid7 3) { teamSpace with catalogGeneration := 2 } 0 := by
  refine ((authority_identified granted again).2.2 principal (uuid7 3)
    { teamSpace with catalogGeneration := 2 } { teamSpace with catalogGeneration := 2 } 0
    row.1 row.2 ?_).1 ?_
  · have apart : Blake3.hash (authorityBytes 1 [1, 3, 2, 1, 2, 1]) ≠
        Blake3.hash (authorityBytes 1 [1, 5, 2, 1, 4, 1]) := by decide +kernel
    rintro _ (⟨_, first, rfl⟩ | ⟨_, first, rfl⟩) _ (⟨_, second, rfl⟩ | ⟨_, second, rfl⟩) same
    · rw [Except.ok.inj (first.symm.trans second)]
    · obtain rfl := Except.ok.inj (first.symm.trans read.1)
      obtain rfl := Except.ok.inj (second.symm.trans read.2)
      exact absurd same apart
    · obtain rfl := Except.ok.inj (first.symm.trans read.2)
      obtain rfl := Except.ok.inj (second.symm.trans read.1)
      exact absurd same.symm apart
    · rw [Except.ok.inj (first.symm.trans second)]
  · intro same
    have reader : before.roleAnswer principal (uuid7 3)
        { teamSpace with catalogGeneration := 2 } 0 = .ok (some .reader) := rfl
    have maintainer : after.roleAnswer principal (uuid7 3)
        { teamSpace with catalogGeneration := 2 } 0 = .ok (some .maintainer) := rfl
    have roles := Except.ok.inj ((reader.symm.trans same).trans maintainer)
    cases roles

/-- The row a space has after its activation. -/
abbrev Regranted.activeSpace : MemorySpace :=
  { Regranted.teamSpace with state := .active, catalogGeneration := 4, updatedAt := 1 }

open Merge.Fixture Regranted in
/-- An activation whose row cannot be read after the commit fails and has raised the generation;
and for a principal that is not known the snapshot is the same error before and after an
activation. -/
theorem authority_not_identified :
    ¬ (∀ first call failure error,
      ((empty.history first).perform call failure).2 = .error error →
        ((empty.history first).perform call failure).1.catalog.catalogGeneration =
          (empty.history first).catalog.catalogGeneration) ∧
    ¬ (∀ (first later : List (Call × Option String)) (principal : String) (id : SpaceId)
        (row row' : MemorySpace) (now : Int64),
      (empty.history first).spaces.get? id = some row →
      ((empty.history first).history later).spaces.get? id = some row' → row ≠ row' →
        (empty.history first).snapshotAnswer principal id row now ≠
          ((empty.history first).history later).snapshotAnswer principal id row' now) := by
  constructor
  · intro unchanged
    have same := unchanged granted (.activateSpace (uuid7 3) manifestHash 1 (some "disk I/O error"))
      none "disk I/O error" (by decide +kernel)
    revert same
    decide +kernel
  · intro distinct
    refine distinct granted [(.activateSpace (uuid7 3) manifestHash 1 none, none)] "local:nobody"
      (uuid7 3) { teamSpace with catalogGeneration := 2 } activeSpace 0 row.1
      (by decide +kernel) (by decide +kernel) ?_
    rw [snapshot_of_unknown (by decide +kernel), snapshot_of_unknown (by decide +kernel)]

end ProductSpaces

end OpenMemory.Daemon
