import OpenMemory.Engine.Migration

/-!
# Crash safety of the migration swap

A process that stops during the swap leaves what some first part of its file
operations has made of the profile. While the sentinel stands, every open and
every further migration refuses the profile, and each entry of the old layout is
at its old place or in the backup. Before the sentinel the profile opens as the
old layout, and after it as the staged one.
-/

namespace OpenMemory.Engine.Migration

open Foundation OpenMemory.Graph

/-! ## What is assumed and what is to hold -/

/-- The entries of an old layout with several domains are its manifest and the
directory of its stores, and no store file stands at the root. -/
structure Layout (p : Profile) (domains : Nat) : Prop where
  tree : 1 < domains → (p.get .root domainsDir).isSome
  unmixed : 1 < domains → ∀ name ∈ singleStoreEntries, p.get .root name = none

/-- The staging directory holds a complete layout. -/
structure Staged [Toml] (dataDir : String) (p : Profile) (domains : Nat) : Prop where
  positive : 1 ≤ domains
  database : domains = 1 → (p.get .staging memoryDbFile).isSome
  manifest : 1 < domains → pinnedDomains dataDir (p.get .staging) = .ok (some domains)
  tree : 1 < domains → (p.get .staging domainsDir).isSome

/-- The profile opens with its own domain count only, and then as the given
stores. -/
def OpensAs [Toml] (dataDir : String) (p : Profile) (domains : Nat) (stores : Opened) : Prop :=
  ∀ requested, if max requested 1 = domains then openInner dataDir p requested = .ok stores
    else ∃ error, openInner dataDir p requested = .error error

/-- The sentinel refuses the profile, and nothing of the old layout is lost. -/
structure Guarded [Toml] (dataDir : String) (old p : Profile) (fromDomains : Nat) : Prop where
  openRefused : ∀ requested, openInner dataDir p requested = .error (interruptedMigration dataDir)
  migrationRefused : ∀ toDomains,
    migratePreconditions dataDir p toDomains = .error (interruptedSwap dataDir)
  kept : ∀ name ∈ layoutNames fromDomains, ∀ node, old.get .root name = some node →
    p.get .root name = some node ∨ p.get .backup name = some node

/-! ## What one operation does -/

section Operations

variable {p q : Profile} {required : Bool} {source target place : Place} {name other : String}

theorem get_set (directory : Directory) :
    (p.set place directory).get target other =
      if target = place then directory other else p.get target other := by
  unfold Profile.get Profile.set
  by_cases same : target = place
  · rw [same, Function.update_self, if_pos rfl]
    rfl
  · rw [Function.update_of_ne same, if_neg same]

/-- A move takes an entry from one directory to another and touches no other. -/
theorem get_rename (apart : source ≠ target)
    (moved : apply p (.rename required source target name) = some q) :
    q.get place other =
      if other ≠ name then p.get place other
      else if place = source then none
      else if place = target then (p.get source name).or (p.get target name)
      else p.get place other := by
  simp only [apply] at moved
  split at moved
  next missing =>
    split at moved <;> cases moved
    split_ifs with same here there
    · rfl
    · rw [not_not.mp same, here, missing]
    · rw [not_not.mp same, there, missing, Option.none_or]
    · rfl
  next node found =>
    split at moved <;> cases moved
    rw [get_set, get_set]
    by_cases same : other = name
    · subst same
      rw [if_neg (not_not.mpr rfl), Function.update_self, Function.update_self, found,
        Option.some_or]
      by_cases there : place = target
      · subst there
        rw [if_pos rfl, if_neg apart.symm, if_pos rfl]
      · rw [if_neg there, if_neg there]
    · rw [if_pos same, Function.update_of_ne same, Function.update_of_ne same]
      split_ifs with there here
      · rw [there]
      · rw [here]
      · rfl

/-- A move needs its target directory, and its entry when that is required. -/
theorem exists_rename (directory : (p target).isSome)
    (entry : required = true → (p.get source name).isSome) :
    ∃ q, apply p (.rename required source target name) = some q := by
  simp only [apply]
  split
  next missing =>
    cases required with
    | false => exact ⟨p, rfl⟩
    | true => exact absurd (entry rfl) (by rw [missing]; decide)
  next node found => exact ⟨_, if_pos directory⟩

/-- No directory goes away when an entry is moved. -/
theorem isSome_rename (moved : apply p (.rename required source target name) = some q)
    (directory : (p place).isSome) : (q place).isSome := by
  simp only [apply] at moved
  split at moved
  next =>
    split at moved <;> cases moved
    exact directory
  next node found =>
    split at moved <;> cases moved
    unfold Profile.set
    by_cases there : place = target
    · rw [there, Function.update_self]
      rfl
    · rw [Function.update_of_ne there]
      by_cases here : place = source
      · rw [here, Function.update_self]
        rfl
      · rw [Function.update_of_ne here]
        exact directory

end Operations

/-! ## What moving a layout does -/

variable {removed names : List String} {domains : Nat} {operation : Operation}
  {operations : List Operation} {root : Directory} {whole : Bool}

section Moves

variable {p q : Profile} {required : Bool} {source target place : Place}

theorem get_moves (apart : source ≠ target) (distinct : names.Nodup)
    (moved : runs apply p (names.map (.rename required source target)) = some q) (name : String) :
    q.get place name =
      if name ∉ names then p.get place name
      else if place = source then none
      else if place = target then (p.get source name).or (p.get target name)
      else p.get place name := by
  induction names generalizing p with
  | nil =>
    cases moved
    rfl
  | cons first rest ih =>
    obtain ⟨middle, one, others⟩ := runs_cons.mp moved
    obtain ⟨absent, distinct⟩ := List.nodup_cons.mp distinct
    rw [ih distinct others]
    by_cases same : name = first
    · subst same
      rw [if_pos absent, get_rename apart one, if_neg (not_not.mpr rfl),
        if_neg (not_not.mpr List.mem_cons_self)]
    · have keep : ∀ place, middle.get place name = p.get place name := fun place => by
        rw [get_rename apart one, if_pos same]
      simp only [keep, List.mem_cons, same, false_or]

theorem exists_moves (apart : source ≠ target) (distinct : names.Nodup)
    (directory : (p target).isSome)
    (entries : required = true → ∀ name ∈ names, (p.get source name).isSome) :
    ∃ q, runs apply p (names.map (.rename required source target)) = some q := by
  induction names generalizing p with
  | nil => exact ⟨p, rfl⟩
  | cons first rest ih =>
    obtain ⟨absent, distinct⟩ := List.nodup_cons.mp distinct
    obtain ⟨middle, one⟩ : ∃ q, apply p (.rename required source target first) = some q :=
      exists_rename directory fun strict => entries strict first List.mem_cons_self
    obtain ⟨q, others⟩ := ih distinct (isSome_rename one directory) fun strict name member => by
      have elsewhere : name ≠ first := fun same => absent (same ▸ member)
      rw [get_rename apart one, if_pos elsewhere]
      exact entries strict name (List.mem_cons_of_mem _ member)
    exact ⟨q, runs_cons.mpr ⟨middle, one, others⟩⟩

theorem isSome_moves (moved : runs apply p (names.map (.rename required source target)) = some q)
    (directory : (p place).isSome) : (q place).isSome := by
  induction names generalizing p with
  | nil =>
    cases moved
    exact directory
  | cons first rest ih =>
    obtain ⟨middle, one, others⟩ := runs_cons.mp moved
    exact ih others (isSome_rename one directory)

theorem nodup_layoutNames (domains : Nat) : (layoutNames domains).Nodup := by
  unfold layoutNames
  split <;> decide

theorem sentinel_not_mem_layoutNames (domains : Nat) :
    migrateSentinelFile ∉ layoutNames domains := by
  unfold layoutNames
  split <;> decide

end Moves

/-! ## While the sentinel stands -/

section Swap

variable [Toml] {dataDir : String} {old p q : Profile} {fromDomains toDomains : Nat}

/-- The old layout is being moved: each entry stands where it stood, or has been
moved away. -/
structure Parking (old : Profile) (fromDomains : Nat) (p : Profile) : Prop where
  sentinel : (p.get .root migrateSentinelFile).isSome
  kept : ∀ name ∈ layoutNames fromDomains,
    (p.get .root name = old.get .root name ∧ p.get .backup name = none) ∨
      (p.get .root name = none ∧ p.get .backup name = old.get .root name)

/-- The old layout has been moved. -/
structure Parked (old : Profile) (fromDomains : Nat) (p : Profile) : Prop where
  sentinel : (p.get .root migrateSentinelFile).isSome
  kept : ∀ name ∈ layoutNames fromDomains, p.get .backup name = old.get .root name

/-- The sentinel refuses every open and every migration. -/
theorem guarded_of_sentinel (sentinel : (p.get .root migrateSentinelFile).isSome)
    (kept : ∀ name ∈ layoutNames fromDomains, ∀ node, old.get .root name = some node →
      p.get .root name = some node ∨ p.get .backup name = some node) :
    Guarded dataDir old p fromDomains where
  openRefused := by
    intro requested
    simp only [openInner]
    rw [if_pos sentinel]
  migrationRefused := by
    intro requested
    simp only [migratePreconditions, refuseIf, if_pos sentinel]
    rfl
  kept := kept

theorem Parking.guarded (parking : Parking old fromDomains p) :
    Guarded dataDir old p fromDomains := by
  refine guarded_of_sentinel parking.sentinel fun name member node found => ?_
  rcases parking.kept name member with ⟨here, -⟩ | ⟨-, there⟩
  · exact .inl (here.trans found)
  · exact .inr (there.trans found)

theorem Parked.guarded (parked : Parked old fromDomains p) : Guarded dataDir old p fromDomains :=
  guarded_of_sentinel parked.sentinel fun name member _ found =>
    .inr ((parked.kept name member).trans found)

variable {name : String}

omit [Toml] in
/-- Moving one more entry of the old layout. -/
theorem Parking.rename {required : Bool} (parking : Parking old fromDomains p)
    (member : name ∈ layoutNames fromDomains)
    (moved : apply p (.rename required .root .backup name) = some q) :
    Parking old fromDomains q where
  sentinel := by
    have elsewhere : migrateSentinelFile ≠ name := fun same =>
      sentinel_not_mem_layoutNames fromDomains (same ▸ member)
    rw [get_rename (by decide) moved, if_pos elsewhere]
    exact parking.sentinel
  kept := by
    intro other inside
    rw [get_rename (by decide) moved, get_rename (by decide) moved]
    by_cases same : other = name
    · subst same
      rw [if_neg (not_not.mpr rfl), if_neg (not_not.mpr rfl), if_pos rfl, if_neg (by decide),
        if_pos rfl]
      refine .inr ⟨rfl, ?_⟩
      rcases parking.kept other inside with ⟨here, empty⟩ | ⟨gone, there⟩
      · rw [here, empty, Option.or_none]
      · rw [gone, there, Option.none_or]
    · rw [if_pos same, if_pos same]
      exact parking.kept other inside

omit [Toml] in
/-- Any part of the moves, after the sentinel was written. -/
theorem parking_of_runs (noBackup : p .backup = none)
    (moves : ∀ operation ∈ operations, operation = .fsyncRoot ∨ operation = .createBackup ∨
      operation ∈ moveLayoutToBackup fromDomains)
    (run : runs apply p (.writeSentinel fromDomains toDomains :: operations) = some q) :
    Parking p fromDomains q := by
  obtain ⟨first, wrote, run⟩ := runs_cons.mp run
  cases wrote
  refine invariant_of_mem (motive := Parking p fromDomains) ?_ ?_ run
  · constructor
    · rw [get_set, if_pos rfl, Function.update_self]
      rfl
    · intro name member
      have elsewhere : name ≠ migrateSentinelFile := fun same =>
        sentinel_not_mem_layoutNames fromDomains (same ▸ member)
      rw [get_set, get_set, if_pos rfl, Function.update_of_ne elsewhere, if_neg (by decide)]
      refine .inl ⟨rfl, ?_⟩
      rw [Profile.get, noBackup]
      rfl
  · intro operation member s next parking stepped
    rcases moves operation member with rfl | rfl | moved
    · cases stepped
      exact parking
    · cases stepped
      refine ⟨?_, fun name inside => ?_⟩
      · rw [get_set, if_neg (by decide)]
        exact parking.sentinel
      · rw [get_set, get_set, if_neg (by decide), if_pos rfl]
        exact parking.kept name inside
    · obtain ⟨name, inside, rfl⟩ := List.mem_map.mp moved
      exact parking.rename inside stepped

/-- What is left to do after the old layout was moved, before the sentinel goes. -/
def settle (toDomains : Nat) (removed : List String) (whole : Bool) : List Operation :=
  moveStagingIntoPlace toDomains ++ (removeStagingDir removed whole ++ [.fsyncRoot])

omit [Toml] in
theorem mem_removeStagingDir (member : operation ∈ removeStagingDir removed whole) :
    (∃ name, operation = .removeStaged name) ∨ operation = .removeStaging := by
  unfold removeStagingDir at member
  rcases List.mem_append.mp member with entry | all
  · obtain ⟨name, -, rfl⟩ := List.mem_map.mp entry
    exact .inl ⟨name, rfl⟩
  · cases whole with
    | false => cases all
    | true => exact .inr (List.mem_singleton.mp all)

omit [Toml] in
/-- Cleaning up touches the staging directory only. -/
theorem get_cleanup {place : Place} (elsewhere : place ≠ .staging)
    (cleans : (∃ name, operation = .removeStaged name) ∨ operation = .removeStaging ∨
      operation = .fsyncRoot) (stepped : apply p operation = some q) :
    q.get place = p.get place := by
  rcases cleans with ⟨name, rfl⟩ | rfl | rfl <;> cases stepped
  · rw [Profile.get, Function.update_of_ne elsewhere, Profile.get]
  · rw [Profile.get, Function.update_of_ne elsewhere, Profile.get]
  · rfl

omit [Toml] in
/-- Any part of what is left keeps the old layout in the backup. -/
theorem Parked.of_runs (parked : Parked old fromDomains p)
    (settles : ∀ operation ∈ operations, operation ∈ settle toDomains removed whole)
    (run : runs apply p operations = some q) : Parked old fromDomains q := by
  refine invariant_of_mem (motive := Parked old fromDomains) parked ?_ run
  intro operation member s next parked stepped
  rcases List.mem_append.mp (settles operation member) with place | cleanup
  · obtain ⟨name, inside, rfl⟩ := List.mem_map.mp place
    have elsewhere : migrateSentinelFile ≠ name := fun same =>
      sentinel_not_mem_layoutNames toDomains (same ▸ inside)
    refine ⟨?_, fun other kept => ?_⟩
    · rw [get_rename (by decide) stepped, if_pos elsewhere]
      exact parked.sentinel
    · have same : next.get .backup other = s.get .backup other := by
        rw [get_rename (by decide) stepped]
        simp
      exact same.trans (parked.kept other kept)
  · have cleans : (∃ name, operation = .removeStaged name) ∨ operation = .removeStaging ∨
        operation = .fsyncRoot := by
      rcases List.mem_append.mp cleanup with remove | last
      · exact (mem_removeStagingDir remove).imp_right .inl
      · exact .inr (.inr (List.mem_singleton.mp last))
    refine ⟨?_, fun other kept => ?_⟩
    · rw [get_cleanup (by decide) cleans stepped]
      exact parked.sentinel
    · rw [get_cleanup (by decide) cleans stepped]
      exact parked.kept other kept

/-! ## Before and after -/

/-- A profile without the sentinel opens with the count of its manifest. -/
theorem opensAs_of_manifest (unguarded : p.get .root migrateSentinelFile = none)
    (manifest : manifestDomains dataDir (p.get .root) = .ok domains)
    (database : domains = 1 → (p.get .root memoryDbFile).isSome) :
    OpensAs dataDir p domains (openStores (p.get .root) domains) := by
  intro requested
  simp only [openInner, unguarded]
  unfold manifestDomains at manifest
  cases pinned : pinnedDomains dataDir (p.get .root) with
  | error error =>
    rw [pinned] at manifest
    cases manifest
  | ok count =>
    rw [pinned] at manifest
    cases count with
    | some count =>
      cases manifest
      by_cases same : max requested 1 = count
      · simp [same]
      · simp [same, Ne.symm same]
    | none =>
      cases manifest
      by_cases same : max requested 1 = 1
      · simp [same]
      · have several : 1 < max requested 1 := by omega
        simp [same, several, database]

/-- Before anything is moved: the sentinel and an empty backup. -/
def start (fromDomains toDomains : Nat) : List Operation :=
  [.writeSentinel fromDomains toDomains, .fsyncRoot, .createBackup]

section

omit [Toml]

theorem get_start (run : runs apply p (start fromDomains toDomains) = some q) {place : Place}
    (elsewhere : place = .root → name ≠ migrateSentinelFile) :
    q.get place name = p.get place name := by
  obtain ⟨first, wrote, run⟩ := runs_cons.mp run
  cases wrote
  obtain ⟨second, synced, run⟩ := runs_cons.mp run
  cases synced
  cases run
  rw [get_set, get_set, get_set]
  cases place with
  | root =>
    rw [if_neg (by decide), if_pos rfl, Function.update_of_ne (elsewhere rfl)]
  | backup => simp
  | staging => simp

theorem exists_start (p : Profile) (fromDomains toDomains : Nat) :
    ∃ q, runs apply p (start fromDomains toDomains) = some q ∧ (q .backup).isSome ∧
      (q .root).isSome :=
  ⟨_, rfl, rfl, rfl⟩

/-- Where every entry stands when the old layout has been moved. -/
theorem get_park {middle : Profile} (noBackup : p .backup = none)
    (starts : runs apply p (start fromDomains toDomains) = some middle)
    (moves : runs apply middle (moveLayoutToBackup fromDomains) = some q)
    (elsewhere : name ≠ migrateSentinelFile) :
    q.get .root name = (if name ∈ layoutNames fromDomains then none else p.get .root name) ∧
      q.get .staging name = p.get .staging name ∧
      (name ∈ layoutNames fromDomains → q.get .backup name = p.get .root name) := by
  have distinct := nodup_layoutNames fromDomains
  have root : middle.get .root name = p.get .root name := get_start starts fun _ => elsewhere
  have staging : middle.get .staging name = p.get .staging name :=
    get_start starts (by rintro ⟨⟩)
  have backup : middle.get .backup name = p.get .backup name := get_start starts (by rintro ⟨⟩)
  have empty : p.get .backup name = none := by
    rw [Profile.get, noBackup]
    rfl
  refine ⟨?_, ?_, fun member => ?_⟩
  · rw [get_moves (by decide) distinct moves, root]
    by_cases member : name ∈ layoutNames fromDomains
    · simp [member]
    · simp [member]
  · rw [get_moves (by decide) distinct moves, staging]
    simp
  · rw [get_moves (by decide) distinct moves, root, backup, empty]
    simp [member]

/-- Where every entry stands at the root when the staged layout is in place and
the staging directory is cleaned up. -/
theorem get_settle (run : runs apply p (settle toDomains removed whole) = some q) (name : String) :
    q.get .root name = if name ∈ layoutNames toDomains then
      (p.get .staging name).or (p.get .root name) else p.get .root name := by
  obtain ⟨placed, moves, cleanup⟩ := runs_append.mp run
  have same : q.get .root = placed.get .root := by
    refine invariant_of_mem (motive := fun s : Profile => s.get .root = placed.get .root) rfl ?_
      cleanup
    intro operation member s next kept stepped
    rw [← kept]
    refine get_cleanup (by decide) ?_ stepped
    rcases List.mem_append.mp member with remove | last
    · exact (mem_removeStagingDir remove).imp_right .inl
    · exact .inr (.inr (List.mem_singleton.mp last))
  rw [same, get_moves (by decide) (nodup_layoutNames toDomains) moves]
  by_cases member : name ∈ layoutNames toDomains
  · simp [member]
  · simp [member]

/-- Cleaning up does not fail. -/
theorem exists_cleanup (p : Profile)
    (cleans : ∀ operation ∈ operations, (∃ name, operation = .removeStaged name) ∨
      operation = .removeStaging ∨ operation = .fsyncRoot) :
    ∃ q, runs apply p operations = some q := by
  induction operations generalizing p with
  | nil => exact ⟨p, rfl⟩
  | cons operation rest ih =>
    have one : ∃ next, apply p operation = some next := by
      rcases cleans operation List.mem_cons_self with ⟨name, rfl⟩ | rfl | rfl
      · exact ⟨_, rfl⟩
      · exact ⟨_, rfl⟩
      · exact ⟨_, rfl⟩
    obtain ⟨next, stepped⟩ := one
    obtain ⟨q, run⟩ := ih next (List.forall_mem_cons.mp cleans).2
    exact ⟨q, runs_cons.mpr ⟨next, stepped, run⟩⟩

end

/-! ## The manifest of a layout -/

theorem pinnedDomains_congr {first second : Directory}
    (same : first domainManifestFile = second domainManifestFile) :
    pinnedDomains dataDir first = pinnedDomains dataDir second := by
  simp only [pinnedDomains, same]

/-- More than one domain is always pinned by a manifest. -/
theorem pinned_of_manifestDomains (several : 1 < domains)
    (manifest : manifestDomains dataDir root = .ok domains) :
    pinnedDomains dataDir root = .ok (some domains) := by
  unfold manifestDomains at manifest
  cases pinned : pinnedDomains dataDir root with
  | error error =>
    rw [pinned] at manifest
    cases manifest
  | ok count =>
    rw [pinned] at manifest
    cases count with
    | some count =>
      cases manifest
      rfl
    | none =>
      cases manifest
      exact absurd several (by decide)

theorem manifestDomains_of_pinned {count : Option Nat}
    (pinned : pinnedDomains dataDir root = .ok count) :
    manifestDomains dataDir root = .ok (count.getD 1) := by
  rw [manifestDomains, pinned]
  rfl

theorem manifestDomains_pos
    (manifest : manifestDomains dataDir root = .ok domains) : 1 ≤ domains := by
  by_contra none
  have zero : domains = 0 := by omega
  subst zero
  unfold manifestDomains pinnedDomains at manifest
  simp only [bind_eq_ok, pure_eq_ok] at manifest
  obtain ⟨count, pinned, count_eq⟩ := manifest
  split at pinned
  · cases pinned
    cases count_eq
  · cases pinned
  · split at pinned
    · cases pinned
    · split at pinned <;> cases pinned
      simp only [Option.getD_some] at count_eq
      omega

theorem manifest_present (pinned : pinnedDomains dataDir root = .ok (some domains)) :
    (root domainManifestFile).isSome := by
  unfold pinnedDomains at pinned
  cases file : root domainManifestFile with
  | none =>
    rw [file] at pinned
    cases pinned
  | some node => rfl

/-- What the checks before a migration establish. -/
theorem preconditions_ok
    (checked : migratePreconditions dataDir p toDomains = .ok fromDomains) :
    p.get .root migrateSentinelFile = none ∧ p .backup = none ∧
      manifestDomains dataDir (p.get .root) = .ok fromDomains ∧
      (fromDomains = 1 → (p.get .root memoryDbFile).isSome) ∧ fromDomains ≠ max toDomains 1 := by
  unfold migratePreconditions at checked
  simp only [bind_eq_ok, refuseIf_eq_ok, pure_eq_ok] at checked
  obtain ⟨_, sentinel, _, backup, count, manifest, _, database, _, different, _, -, rfl⟩ := checked
  refine ⟨by simpa using sentinel, by simpa using backup, manifest, fun one => ?_, different⟩
  have present := not_and.mp database one
  rwa [Option.isNone_iff_eq_none, ← ne_eq, Option.ne_none_iff_isSome] at present

/-! ## The swap as a whole -/

omit [Toml] in
theorem swap_eq (removed : List String) (whole : Bool) :
    swap fromDomains toDomains removed whole =
      start fromDomains toDomains ++ (moveLayoutToBackup fromDomains ++
        (settle toDomains removed whole ++ [.removeSentinel, .fsyncRoot])) := by
  simp [swap, start, settle]

/-- The swap has a run to its end. -/
theorem exists_swap (removed : List String) (whole : Bool) (layout : Layout p fromDomains)
    (staged : Staged dataDir p toDomains)
    (manifest : manifestDomains dataDir (p.get .root) = .ok fromDomains) :
    ∃ q, runs apply p (swap fromDomains toDomains removed whole) = some q := by
  obtain ⟨started, starts, backup, root⟩ := exists_start p fromDomains toDomains
  have present : decide (1 < fromDomains) = true → ∀ name ∈ layoutNames fromDomains,
      (started.get .root name).isSome := by
    intro several name member
    have several := of_decide_eq_true several
    have elsewhere : name ≠ migrateSentinelFile := fun same =>
      sentinel_not_mem_layoutNames fromDomains (same ▸ member)
    rw [get_start starts fun _ => elsewhere]
    rw [layoutNames, if_pos several] at member
    rcases List.mem_cons.mp member with rfl | last
    · exact layout.tree several
    · rw [List.mem_singleton.mp last]
      exact manifest_present (pinned_of_manifestDomains several manifest)
  obtain ⟨parked, parks⟩ := exists_moves (by decide) (nodup_layoutNames fromDomains) backup present
  have stagedEntries : decide (1 < toDomains) = true → ∀ name ∈ layoutNames toDomains,
      (parked.get .staging name).isSome := by
    intro several name member
    have several := of_decide_eq_true several
    have same : parked.get .staging name = p.get .staging name := by
      rw [get_moves (by decide) (nodup_layoutNames fromDomains) parks,
        get_start starts (by rintro ⟨⟩)]
      simp
    rw [same]
    rw [layoutNames, if_pos several] at member
    rcases List.mem_cons.mp member with rfl | last
    · exact staged.tree several
    · rw [List.mem_singleton.mp last]
      exact manifest_present (staged.manifest several)
  obtain ⟨placed, places⟩ := exists_moves (by decide) (nodup_layoutNames toDomains)
    (isSome_moves parks root) stagedEntries
  have cleans : ∀ operation ∈ removeStagingDir removed whole ++ [.fsyncRoot],
      (∃ name, operation = .removeStaged name) ∨ operation = .removeStaging ∨
        operation = .fsyncRoot := by
    intro operation member
    rcases List.mem_append.mp member with remove | last
    · exact (mem_removeStagingDir remove).imp_right .inl
    · exact .inr (.inr (List.mem_singleton.mp last))
  obtain ⟨settled, cleanup⟩ := exists_cleanup placed cleans
  refine ⟨settled.set .root (Function.update (settled.get .root) migrateSentinelFile none), ?_⟩
  rw [swap_eq, runs_append]
  refine ⟨started, starts, runs_append.mpr ⟨parked, parks, runs_append.mpr ⟨settled, ?_, rfl⟩⟩⟩
  exact runs_append.mpr ⟨placed, places, cleanup⟩

/-- After the swap the profile opens as the staged layout. -/
theorem opensAs_staged {started parked settled : Profile}
    (layout : Layout p fromDomains) (staged : Staged dataDir p toDomains)
    (checked : migratePreconditions dataDir p toDomains = .ok fromDomains)
    (starts : runs apply p (start fromDomains toDomains) = some started)
    (parks : runs apply started (moveLayoutToBackup fromDomains) = some parked)
    (settles : runs apply parked (settle toDomains removed whole) = some settled)
    (unguarded : q.get .root migrateSentinelFile = none)
    (same : ∀ name, name ≠ migrateSentinelFile → q.get .root name = settled.get .root name) :
    OpensAs dataDir q toDomains (openStores (p.get .staging) toDomains) := by
  obtain ⟨-, noBackup, manifest, -, different⟩ := preconditions_ok checked
  rw [max_eq_left staged.positive] at different
  have entry : ∀ name, name ≠ migrateSentinelFile → q.get .root name =
      if name ∈ layoutNames toDomains then (p.get .staging name).or
        (if name ∈ layoutNames fromDomains then none else p.get .root name)
      else if name ∈ layoutNames fromDomains then none else p.get .root name := by
    intro name elsewhere
    obtain ⟨root, staging, -⟩ := get_park noBackup starts parks elsewhere
    rw [same name elsewhere, get_settle settles, root, staging]
  by_cases several : 1 < toDomains
  · have names : layoutNames toDomains = [domainsDir, domainManifestFile] := if_pos several
    have placed : ∀ name ∈ layoutNames toDomains, (p.get .staging name).isSome →
        q.get .root name = p.get .staging name := by
      intro name member present
      have elsewhere : name ≠ migrateSentinelFile := fun equal =>
        sentinel_not_mem_layoutNames toDomains (equal ▸ member)
      rw [entry name elsewhere, if_pos member]
      obtain ⟨node, found⟩ := Option.isSome_iff_exists.mp present
      rw [found, Option.some_or]
    have pinned := staged.manifest several
    have manifest_eq := placed domainManifestFile (by rw [names]; decide) (manifest_present pinned)
    have tree_eq := placed domainsDir (by rw [names]; decide) (staged.tree several)
    have stores : openStores (p.get .staging) toDomains = openStores (q.get .root) toDomains := by
      unfold openStores
      rw [if_neg (Nat.ne_of_gt several), if_neg (Nat.ne_of_gt several), tree_eq]
    rw [stores]
    refine opensAs_of_manifest unguarded ?_ fun one => absurd one (Nat.ne_of_gt several)
    rw [← pinnedDomains_congr manifest_eq] at pinned
    exact manifestDomains_of_pinned pinned
  · have one : toDomains = 1 := by
      have positive := staged.positive
      omega
    subst one
    have fromSeveral : 1 < fromDomains := by
      have positive := manifestDomains_pos manifest
      omega
    have placed : ∀ name ∈ singleStoreEntries, q.get .root name = p.get .staging name := by
      intro name member
      have elsewhere : name ≠ migrateSentinelFile := by
        rintro rfl
        exact absurd member (by decide)
      rw [entry name elsewhere, if_pos (show name ∈ layoutNames 1 from member),
        layout.unmixed fromSeveral name member, ite_self, Option.or_none]
    have stores : openStores (p.get .staging) 1 = openStores (q.get .root) 1 := by
      unfold openStores
      rw [if_pos rfl, if_pos rfl]
      congr 1
      funext name
      unfold storeEntries
      split_ifs with member
      · exact (placed name member).symm
      · rfl
    rw [stores]
    refine opensAs_of_manifest unguarded ?_ fun _ => ?_
    · have gone : q.get .root domainManifestFile = none := by
        rw [entry domainManifestFile (by decide), if_neg (by decide), layoutNames,
          if_pos fromSeveral, if_pos (by decide)]
      unfold manifestDomains pinnedDomains
      rw [gone]
      rfl
    · rw [placed memoryDbFile (by decide)]
      exact staged.database rfl

omit [Toml] in
theorem mem_park {rest : List Operation}
    (part : rest <+: .fsyncRoot :: .createBackup :: moveLayoutToBackup fromDomains)
    (member : operation ∈ rest) : operation = .fsyncRoot ∨ operation = .createBackup ∨
      operation ∈ moveLayoutToBackup fromDomains := by
  have inside := part.subset member
  simpa using inside

omit [Toml] in
/-- The old layout is in the backup once it has been moved. -/
theorem parked_of_park {started parked : Profile} (noBackup : p .backup = none)
    (starts : runs apply p (start fromDomains toDomains) = some started)
    (parks : runs apply started (moveLayoutToBackup fromDomains) = some parked) :
    Parked p fromDomains parked where
  sentinel := by
    have run : runs apply p (start fromDomains toDomains ++ moveLayoutToBackup fromDomains) =
        some parked := runs_append.mpr ⟨started, starts, parks⟩
    have parking : Parking p fromDomains parked :=
      parking_of_runs noBackup (fun _ member => mem_park (List.prefix_refl _) member) run
    exact parking.sentinel
  kept := by
    intro name member
    have elsewhere : name ≠ migrateSentinelFile := fun same =>
      sentinel_not_mem_layoutNames fromDomains (same ▸ member)
    exact (get_park noBackup starts parks elsewhere).2.2 member

end Swap

/-! ## From one domain to two -/

/-- A codec that knows the manifest of two domains. -/
abbrev sampleToml : Toml where
  fromStr := fun text =>
    if text = "version = 1\ndomains = 2\n" then .ok ⟨1, 2⟩ else .error "expected a manifest"
  toStringPretty := fun _ => "version = 1\ndomains = 2\n"

/-- A single store with a database, and two staged domains. -/
def sampleProfile : Profile
  | .root => some fun name => if name = memoryDbFile then some (.file [1]) else none
  | .backup => none
  | .staging => some fun name =>
    if name = domainsDir then some (.directory [])
    else if name = domainManifestFile then
      some (.file (utf8 (sampleToml.toStringPretty ⟨1, 2⟩)))
    else none

end OpenMemory.Engine.Migration
