import OpenMemory.Daemon.Backup

/-!
# What a restore leaves of a profile

A restore should leave the profile as it was or completely restored, at every point where the
process may stop: as it was, and without a staging directory, when it answers an error, and with
exactly the files of the source of the backup when it succeeds.

It does so only where there is no profile to replace. An existing profile is moved aside before
the restored one is moved in, and between the two there is no profile. A copy whose stores cannot
be opened stays in its staging directory, as does one whose removal fails, and a failure of the
last operation is answered with an error when the restored profile is already in place. The
conditions are exact: `Sheltered` says which failures there must not be, after the checks of the
request, what was found on the disk and what opening the copied stores does to their files.
-/

namespace OpenMemory.Daemon.Backup

open Foundation Foundation.Directories

/-! ## The copied files -/

theorem copyPayloadEntries_eq (entries : Entries) :
    copyPayloadEntries entries = (entries.without backupManifestFile).copied [] := by
  cases entries with
  | nil => simp [copyPayloadEntries, Entries.without, Entries.copied]
  | cons name node rest =>
    rw [copyPayloadEntries, Entries.without, copyPayloadEntries_eq rest]
    by_cases manifest : name = backupManifestFile
    · rw [if_pos manifest, if_pos manifest]
    · rw [if_neg manifest, if_neg manifest, Entries.copied, List.nil_append]

/-- A restore copies the backup as a directory without its manifest. -/
theorem copyBackupPayload_eq (entries : Entries) :
    copyBackupPayload entries =
      (Node.directory (entries.without backupManifestFile)).copied [] := by
  rw [copyBackupPayload, copyPayloadEntries_eq, Node.copied]

/-- The files a restore lays in the staging directory. -/
def stagedFiles (backup : Entries) : Listing :=
  (laid (copyBackupPayload backup) none).getD []

theorem laid_copyBackupPayload (backup : Entries) :
    laid (copyBackupPayload backup) none = some (stagedFiles backup) ∧
      (stagedFiles backup).Shows (backup.without backupManifestFile) := by
  obtain ⟨table, left, shown⟩ := laid_directory (backup.without backupManifestFile)
  rw [← copyBackupPayload_eq] at left
  rw [stagedFiles, left]
  exact ⟨rfl, shown⟩

/-! ## What a backup holds -/

/-- A listing with the files of a source and the manifest. -/
structure HoldsBackup (source : Entries) (listing : Listing) (text : Directories.Bytes) :
    Prop where
  /-- The name of the manifest was free. -/
  free : (Node.directory source).stored [backupManifestFile] = none
  bytes : ∀ path, listing.bytes path =
    if path = [backupManifestFile] then some text else (Node.directory source).bytes path

/-- Such a listing is read as the manifest and the entries of the source. -/
theorem HoldsBackup.entries {source : Entries} {listing : Listing} {text : Directories.Bytes}
    (holds : HoldsBackup source listing text) (path : Path) :
    (Node.directory (.cons backupManifestFile (.file text) source)).bytes path =
      listing.bytes path := by
  have free := holds.free
  rw [Node.stored] at free
  rw [holds.bytes]
  cases path with
  | nil => rfl
  | cons name rest =>
    rw [Node.bytes, Node.stored, Entries.stored]
    by_cases manifest : name = backupManifestFile
    · subst manifest
      rw [Entries.stored_below free, if_pos rfl]
      cases rest with
      | nil => rw [if_pos rfl, Option.none_or, Node.stored]; rfl
      | cons next rest =>
        rw [if_neg (by simp), Option.none_or, Node.stored, Node.bytes, Node.stored,
          Entries.stored_below free]
    · rw [if_neg (fun same => manifest same.symm), if_neg (by simp [manifest]), Option.or_none,
        Node.bytes, Node.stored]

/-- A backup that was answered with a report holds the source. -/
def Backed (call : BackupCall) (source : Entries) (result : Created) : Prop :=
  ∀ report, result.2 = .ok report →
    ∃ listing text, result.1.disk (backupName call) = some listing ∧ HoldsBackup source listing text

theorem Backed.of_error {call : BackupCall} {source : Entries} {s : Session} {error : AdminError} :
    Backed call source (s, .error error) := nofun

theorem Backed.placeBackup {call : BackupCall} {source : Entries}
    {manifest : AdminBackupManifest} {s : Session} {listing : Listing}
    {text : Directories.Bytes}
    (found : s.disk (backupStagingName call) = some listing)
    (holds : HoldsBackup source listing text) :
    Backed call source (placeBackup call manifest s) := by
  rw [Backup.placeBackup]
  split
  next => exact .of_error
  split
  next => exact .of_error
  next placed renamed =>
  split
  next => exact .of_error
  next synced last =>
  obtain ⟨_, disk, effect, rfl⟩ := Session.attempt_eq_some.mp last
  obtain ⟨_, moved, effect', rfl⟩ := Session.attempt_eq_some.mp renamed
  intro report answered
  obtain rfl : moved = disk := Option.some.inj effect
  obtain ⟨_, rfl⟩ := DiskOp.effect_rename.mp effect'
  exact ⟨listing, text, by simp [found], holds⟩

theorem HoldsBackup.of_laid {source : Entries} {table next : Listing} {text : String}
    (shown : table.Shows source)
    (left : laid (writeBackupManifest text) (some table) = some next) :
    HoldsBackup source next (text ++ "\n").toUTF8.toList := by
  simp only [laid, writeBackupManifest, List.foldl_cons, List.foldl_nil, FileOp.effect] at left
  by_cases free : table.lookup [backupManifestFile] = none
  · rw [if_pos free] at left
    obtain rfl := Option.some.inj left
    refine ⟨by rw [← shown, free], fun path => ?_⟩
    by_cases manifest : path = [backupManifestFile]
    · rw [if_pos manifest, Listing.bytes, lookup_cons, if_pos manifest]
      rfl
    · rw [if_neg manifest, Listing.bytes, lookup_cons, lookup_cons, if_neg manifest,
        if_neg manifest]
      exact shown.bytes path
  · rw [if_neg free] at left
    cases left

theorem Backed.describeBackup {call : BackupCall} {source : Entries} {s : Session}
    {table : Listing} (found : s.disk (backupStagingName call) = some table)
    (shown : table.Shows source) : Backed call source (describeBackup call source s) := by
  rw [Backup.describeBackup]
  split
  next => exact .of_error
  split
  next => exact .of_error
  next text encoded =>
  split
  next => exact .of_error
  next written performed =>
  have left := Session.disk_performAll (fun op => call.fails (.manifest op))
    (backupStagingName call) (writeBackupManifest text) s (by rw [performed])
  rw [performed, found] at left
  have kept := Session.performAll_isSome (fun op => call.fails (.manifest op))
    (backupStagingName call) (writeBackupManifest text) s (by simp [found])
  rw [performed] at kept
  obtain ⟨next, there⟩ := Option.isSome_iff_exists.mp kept
  exact .placeBackup there (.of_laid shown (left.symm.trans there))

theorem Backed.copyBackup {call : BackupCall} {source : Entries} {s : Session}
    (nothing : s.disk (backupStagingName call) = none) :
    Backed call source (copyBackup call source s) := by
  rw [Backup.copyBackup]
  split
  next => exact .of_error
  next copied performed =>
  split
  next => exact .of_error
  next synced last =>
  obtain ⟨_, disk, effect, rfl⟩ := Session.attempt_eq_some.mp last
  obtain rfl := Option.some.inj effect
  obtain ⟨table, left, shown⟩ := laid_directory source
  have there := Session.disk_performAll (fun op => call.fails (.copying op))
    (backupStagingName call) (copyDirRecursive source) s (by rw [performed])
  rw [performed, nothing, copyDirRecursive, left] at there
  exact .describeBackup there shown

theorem Backed.stageBackup (call : BackupCall) (source : Entries) (s : Session) :
    Backed call source (stageBackup call source s) := by
  rw [Backup.stageBackup]
  split
  next => exact .of_error
  split
  next =>
    split
    next => exact .of_error
    next cleared removed =>
    obtain ⟨_, disk, effect, rfl⟩ := Session.attempt_eq_some.mp removed
    obtain ⟨_, rfl⟩ := DiskOp.effect_remove.mp effect
    exact .copyBackup (by simp)
  next absent => exact .copyBackup (by simpa using absent)

/-- A created backup holds the files the checkpoint left of the source, and the manifest. -/
theorem backupCreateBlocking_holds {call : BackupCall} {disk : Disk} {s : Session}
    {report : AdminBackupCreateReport}
    (created : backupCreateBlocking call disk = (s, .ok report)) :
    ∃ source listing text, call.checkpointed (call.source.getD .nil) = .ok source ∧
      s.disk (backupName call) = some listing ∧ HoldsBackup source listing text := by
  rw [backupCreateBlocking] at created
  split at created
  next => cases created
  split at created
  next => cases created
  split at created
  next => cases created
  split at created
  next => cases created
  next source checkpointed =>
  obtain ⟨listing, text, found, holds⟩ :=
    Backed.stageBackup call source (Session.start disk) report (by rw [created])
  rw [created] at found
  exact ⟨source, listing, text, checkpointed, found, holds⟩

/-- The entries of a backup directory that `backup_create_blocking` made of a source. -/
def MadeFrom (source backup : Entries) : Prop :=
  ∃ call disk s report, backupCreateBlocking call disk = (s, .ok report) ∧
    call.checkpointed (call.source.getD .nil) = .ok source ∧
    ∀ listing, s.disk (backupName call) = some listing →
      ∀ path, (Node.directory backup).bytes path = listing.bytes path

/-- The payload of a backup is its source. -/
theorem MadeFrom.payload {source backup : Entries} (made : MadeFrom source backup) (path : Path) :
    (Node.directory (backup.without backupManifestFile)).bytes path =
      (Node.directory source).bytes path := by
  obtain ⟨call, disk, s, report, created, checkpointed, reads⟩ := made
  obtain ⟨source', listing, text, checkpointed', found, holds⟩ :=
    backupCreateBlocking_holds created
  obtain rfl : source' = source := Except.ok.inj (checkpointed'.symm.trans checkpointed)
  cases path with
  | nil => rfl
  | cons name rest =>
    have free := holds.free
    rw [Node.stored] at free
    rw [Node.bytes, Node.stored, Entries.stored_without]
    by_cases manifest : name = backupManifestFile
    · subst manifest
      rw [if_pos rfl, Node.bytes, Node.stored, Entries.stored_below free]
    · rw [if_neg manifest]
      have same := (reads listing found (name :: rest)).trans (holds.bytes (name :: rest))
      rw [if_neg (by simp [manifest])] at same
      rw [← same, Node.bytes, Node.stored]

/-! ## A safe restore -/

/-- All files of the source, and no other. -/
def Complete (source : Entries) (profile : Option Listing) : Prop :=
  ∃ listing, profile = some listing ∧
    ∀ path, listing.bytes path = (Node.directory source).bytes path

/-- What a restore should leave of a profile, for what there was before. -/
structure Safe (source : Entries) (target staging : String) (before : Option Listing)
    (result : Restored) : Prop where
  /-- At every stop point the profile is what it was, or completely restored. -/
  whole : ∀ d ∈ result.1.seen, d target = before ∨ Complete source (d target)
  /-- An error leaves the profile as it was and no staging directory. -/
  undone : ∀ error, result.2 = .error error →
    result.1.disk target = before ∧ result.1.disk staging = none
  /-- A report is of a profile with the files of the source. -/
  exact : ∀ report, result.2 = .ok report → Complete source (result.1.disk target)

/-- A name that goes on is another name. -/
theorem ne_followed (name first last : String) : name ≠ first ++ name ++ "-" ++ last := by
  intro same
  have lengths := congrArg String.length same
  have hyphen : "-".length = 1 := rfl
  simp only [String.length_append, hyphen] at lengths
  omega

theorem stagingName_ne (call : RestoreCall) (target : String) :
    target ≠ stagingName call target := by
  rw [stagingName, String.append_assoc]
  exact ne_followed target _ _

theorem previousName_ne (call : RestoreCall) (target : String) :
    target ≠ previousName call target :=
  ne_followed target _ _

section Levels

variable {call : RestoreCall} {target : String} {source : Entries} {disk : Disk} {s : Session}

theorem Safe.of_error (held : s.Holds target disk) (error : AdminError) :
    Safe source target (stagingName call target) (disk target) (s, .error error) ↔
      s.disk (stagingName call target) = none := by
  constructor
  · intro safe
    exact (safe.undone error rfl).2
  · intro nothing
    exact ⟨fun d member => .inl (held d member), fun _ _ => ⟨held.disk, nothing⟩, nofun⟩

/-- An error after an attempt to remove the staging directory. -/
theorem Safe.of_cleaned (held : s.Holds target disk) (fails : Bool) (error : AdminError) :
    Safe source target (stagingName call target) (disk target)
        (s.tryTo fails (.remove (stagingName call target)), .error error) ↔
      s.disk (stagingName call target) = none ∨ fails = false := by
  rw [Session.tryTo_remove]
  split
  next removed =>
    have same : Function.update s.disk (stagingName call target) none target = disk target := by
      rw [Function.update_of_ne (stagingName_ne call target), held.disk]
    rw [Safe.of_error (held.move same)]
    simp [removed.1]
  next kept =>
    rw [Safe.of_error held]
    refine ⟨.inl, fun either => either.elim id fun works => ?_⟩
    by_contra there
    exact kept ⟨works, Option.isSome_iff_ne_none.mpr there⟩

/-- What must not fail once the copied stores are open, and what opening them must have left of
the copied files. -/
structure Placeable (call : RestoreCall) (copied opened : Listing) : Prop where
  unplaced : call.fails .place = true → call.fails .cleanUp = false
  placed : call.fails .place = false →
    call.fails .syncPlaced = false ∧ ∀ path, opened.bytes path = copied.bytes path

theorem Safe.of_placed {copied files : Listing}
    (whole : ∀ path, copied.bytes path = (Node.directory source).bytes path)
    (held : s.Holds target disk) (free : disk target = none) (there : s.disk (stagingName call target) = some files) :
    Safe source target (stagingName call target) (disk target)
        (placeRestored call target none s) ↔
      Placeable call copied files := by
  cases failing : call.fails .place with
  | true =>
    have stopped : s.attempt true (.rename (stagingName call target) target) = none :=
      Session.attempt_eq_none.mpr (.inl rfl)
    rw [placeRestored, failing, stopped]
    refine (Safe.of_cleaned held _ _).trans ⟨fun cleaned => ⟨fun _ => ?_, ?_⟩, fun placeable => ?_⟩
    · rcases cleaned with nothing | works
      · rw [there] at nothing
        cases nothing
      · exact works
    · rw [failing]
      nofun
    · exact .inr (placeable.unplaced failing)
  | false =>
    have renamed : (DiskOp.rename (stagingName call target) target).effect s.disk =
        some (Function.update (Function.update s.disk (stagingName call target) none) target
          (some files)) := by
      rw [DiskOp.effect_rename, held.disk, free, there]
      exact ⟨⟨rfl, rfl⟩, rfl⟩
    have performed := Session.attempt_eq_some.mpr ⟨rfl, _, renamed, rfl⟩
    rw [placeRestored, failing, performed]
    dsimp only
    have old : ∀ d ∈ s.seen, d target = none := fun d member => (held d member).trans free
    cases unsynced : call.fails .syncPlaced with
    | true =>
      rw [Session.attempt_eq_none.mpr (.inl rfl)]
      constructor
      · intro safe
        have back := (safe.undone _ rfl).1
        simp [free] at back
      · intro placeable
        rw [(placeable.placed failing).1] at unsynced
        cases unsynced
    | false =>
      rw [Session.attempt_eq_some.mpr ⟨rfl, _, rfl, rfl⟩]
      constructor
      · intro safe
        obtain ⟨listing, found, same⟩ := safe.exact _ rfl
        simp only [Session.disk_move, Function.update_self, Option.some.injEq] at found
        subst found
        exact ⟨fun fails => (nomatch failing.symm.trans fails),
          fun _ => ⟨unsynced, fun path => (same path).trans (whole path).symm⟩⟩
      · intro placeable
        have complete : Complete source (some files) :=
          ⟨files, rfl, fun path => ((placeable.placed failing).2 path).trans (whole path)⟩
        refine ⟨fun d member => ?_, nofun, fun _ _ => ?_⟩
        · simp only [Session.seen_move, List.mem_cons] at member
          rcases member with rfl | rfl | earlier
          · exact .inr (by simpa using complete)
          · exact .inr (by simpa using complete)
          · exact .inl ((old d earlier).trans free.symm)
        · simpa using complete

theorem mem_seen_placeRestored {d : Disk} (member : d ∈ s.seen) (oldDir : Option String) :
    d ∈ (placeRestored call target oldDir s).1.seen := by
  unfold placeRestored
  split
  next =>
    refine Session.mem_seen_tryTo ?_ _ _
    split
    next => exact Session.mem_seen_tryTo member _ _
    next => exact member
  next placed renamed =>
    obtain ⟨_, next, _, rfl⟩ := Session.attempt_eq_some.mp renamed
    split
    next => exact List.mem_cons_of_mem _ member
    next synced last =>
      obtain ⟨_, next', _, rfl⟩ := Session.attempt_eq_some.mp last
      exact List.mem_cons_of_mem _ (List.mem_cons_of_mem _ member)

/-- Once it is set aside, an existing profile is missing at some stop point. -/
theorem not_safe_swapRestored {files before : Listing} (held : s.Holds target disk)
    (existing : disk target = some before)
    (there : s.disk (stagingName call target) = some files) :
    ¬ Safe source target (stagingName call target) (disk target) (swapRestored call target s) := by
  rw [swapRestored, if_pos (by rw [held.disk, existing]; rfl)]
  split
  next =>
    rw [Safe.of_error held, there]
    nofun
  next aside moved =>
    obtain ⟨_, next, effect, rfl⟩ := Session.attempt_eq_some.mp moved
    obtain ⟨_, rfl⟩ := DiskOp.effect_rename.mp effect
    have missing : Function.update (Function.update s.disk target none)
        (previousName call target) (s.disk target) target = none := by
      rw [Function.update_of_ne (previousName_ne call target), Function.update_self]
    intro safe
    have either := safe.whole (Function.update (Function.update s.disk target none)
      (previousName call target) (s.disk target)) ?_
    · rw [missing, existing] at either
      rcases either with same | ⟨listing, found, _⟩
      · cases same
      · cases found
    · split
      next => exact Session.disk_mem_seen _
      next synced last =>
        obtain ⟨_, next, _, rfl⟩ := Session.attempt_eq_some.mp last
        exact mem_seen_placeRestored (List.mem_cons_of_mem _ (Session.disk_mem_seen _)) _

theorem Safe.of_swapped {copied files : Listing}
    (whole : ∀ path, copied.bytes path = (Node.directory source).bytes path) (held : s.Holds target disk)
    (there : s.disk (stagingName call target) = some files) :
    Safe source target (stagingName call target) (disk target)
        (swapRestored call target s) ↔
      disk target = none ∧ Placeable call copied files := by
  cases before : disk target with
  | some listing =>
    rw [← before]
    simp only [before, reduceCtorEq, false_and, iff_false]
    rw [← before]
    exact not_safe_swapRestored held before there
  | none =>
    have absent : ¬ (s.disk target).isSome := by simp [held.disk, before]
    have placed := Safe.of_placed whole held before there
    rw [before] at placed
    rw [swapRestored, if_neg absent, placed]
    exact (and_iff_right rfl).symm

theorem Safe.of_opened {copied : Listing}
    (whole : ∀ path, copied.bytes path = (Node.directory source).bytes path)
    (held : s.Holds target disk) (there : s.disk (stagingName call target) = some copied) :
    Safe source target (stagingName call target) (disk target)
        (openRestored call target s) ↔
      (call.opens copied).1 = none ∧ disk target = none ∧
        Placeable call copied (call.opens copied).2 := by
  have same (files : Listing) : Function.update s.disk (stagingName call target) (some files)
      target = disk target := by
    rw [Function.update_of_ne (stagingName_ne call target), held.disk]
  unfold openRestored
  rw [there, Option.getD_some]
  rcases call.opens copied with ⟨error, files⟩
  cases error with
  | some error =>
    dsimp only
    rw [Safe.of_error (held.move (same files))]
    simp
  | none =>
    dsimp only
    rw [Safe.of_swapped whole (held.move (same files))
      (by rw [Session.disk_move, Function.update_self])]
    exact (and_iff_right rfl).symm

end Levels

/-! ## When a restore is safe -/

/-- Copying the backup stops before its end. -/
def Interrupted (call : RestoreCall) (backup : Entries) : Prop :=
  (∃ op ∈ copyBackupPayload backup, call.fails (.copying op) = true) ∨
    call.fails .syncStaging = true

/-- What a restore that copies needs, for what was on the disk. -/
structure Copyable (call : RestoreCall) (backup : Entries) (before : Option Listing) : Prop where
  interrupted : Interrupted call backup →
    call.fails (.copying (.createDir [])) = true ∨ call.fails .cleanUp = false
  carried : ¬ Interrupted call backup →
    (call.opens (stagedFiles backup)).1 = none ∧ before = none ∧
      Placeable call (stagedFiles backup) (call.opens (stagedFiles backup)).2

theorem Safe.of_copied {call : RestoreCall} {target : String} {source backup : Entries}
    {disk : Disk} {s : Session} (made : MadeFrom source backup)
    (found : call.backup = some backup) (held : s.Holds target disk)
    (nothing : s.disk (stagingName call target) = none) :
    Safe source target (stagingName call target) (disk target)
        (copyRestored call target s) ↔
      Copyable call backup (disk target) := by
  have apart := stagingName_ne call target
  obtain ⟨left, shown⟩ := laid_copyBackupPayload backup
  have whole : ∀ path, (stagedFiles backup).bytes path = (Node.directory source).bytes path :=
    fun path => (shown.bytes path).trans (made.payload path)
  have ran := Session.performAll_directory (fun op => call.fails (.copying op))
    (stagingName call target) (backup.without backupManifestFile) nothing
  have laidThere := Session.disk_performAll (fun op => call.fails (.copying op))
    (stagingName call target) (copyBackupPayload backup) s
  have heldAfter := Session.Holds.performAll (fun op => call.fails (.copying op)) apart
    (copyBackupPayload backup) s held
  rw [← copyBackupPayload_eq] at ran
  rw [nothing, left] at laidThere
  unfold copyRestored
  rw [found, Option.getD_some]
  obtain ⟨finished, missing⟩ := ran
  generalize s.performAll (fun op => call.fails (.copying op)) (stagingName call target)
    (copyBackupPayload backup) = result at finished missing laidThere heldAfter ⊢
  obtain ⟨after, done⟩ := result
  cases done with
  | false =>
    dsimp only
    have stopped : Interrupted call backup := by
      by_contra none
      refine Bool.false_ne_true (finished.mpr fun op member => ?_)
      by_contra fails
      exact none (.inl ⟨op, member, by simpa using fails⟩)
    rw [Safe.of_cleaned heldAfter, missing]
    exact ⟨fun either => ⟨fun _ => either, fun going => absurd stopped going⟩,
      fun copyable => copyable.interrupted stopped⟩
  | true =>
    dsimp only
    have copied : ∀ op ∈ copyBackupPayload backup, call.fails (.copying op) = false :=
      finished.mp rfl
    cases unsynced : call.fails .syncStaging with
    | true =>
      have stopped : Interrupted call backup := .inr unsynced
      rw [Session.attempt_eq_none.mpr (.inl rfl)]
      dsimp only
      rw [Safe.of_cleaned heldAfter, missing]
      exact ⟨fun either => ⟨fun _ => either, fun going => absurd stopped going⟩,
        fun copyable => copyable.interrupted stopped⟩
    | false =>
      have going : ¬ Interrupted call backup := by
        rintro (⟨op, member, fails⟩ | fails)
        · rw [copied op member] at fails
          cases fails
        · rw [unsynced] at fails
          cases fails
      rw [Session.attempt_eq_some.mpr ⟨rfl, _, rfl, rfl⟩]
      dsimp only
      rw [Safe.of_opened whole (heldAfter.move heldAfter.disk) (laidThere rfl)]
      exact ⟨fun carried => ⟨fun stopped => absurd stopped going, fun _ => carried⟩,
        fun copyable => copyable.carried going⟩

/-- The profile a request names. -/
def restoreTarget (call : RestoreCall) : String :=
  call.targetProfile.getD ((restorePreflight call).manifest.elim "" AdminBackupManifest.profile)

theorem restoreTarget_of_accept {call : RestoreCall} {disk : Disk} {target : String}
    (accepted : acceptRestore call disk = .ok target) : target = restoreTarget call := by
  unfold acceptRestore at accepted
  dsimp only at accepted
  split at accepted
  next => cases accepted
  split at accepted
  next => cases accepted
  next manifest there =>
  split at accepted
  next => cases accepted
  split at accepted
  next => cases accepted
  split at accepted
  next => cases accepted
  obtain rfl := Except.ok.inj accepted
  rw [restoreTarget, there]
  rfl

/-- A restore passes the checks of its request, and the data root can be created. -/
def Begins (call : RestoreCall) (disk : Disk) : Prop :=
  acceptRestore call disk = .ok (restoreTarget call) ∧ call.fails .createDataRoot = false

/-- The failures and the states of the disk that a restore is safe for. -/
structure Sheltered (call : RestoreCall) (backup : Entries) (disk : Disk) : Prop where
  leftover : (disk (stagingName call (restoreTarget call))).isSome →
    Begins call disk ∧ call.fails .clearStaging = false
  copyable : Begins call disk → Copyable call backup (disk (restoreTarget call))

theorem Safe.of_staged {call : RestoreCall} {source backup : Entries} {disk : Disk}
    (made : MadeFrom source backup) (found : call.backup = some backup)
    (accepted : acceptRestore call disk = .ok (restoreTarget call)) :
    Safe source (restoreTarget call) (stagingName call (restoreTarget call))
        (disk (restoreTarget call))
        (stageRestored call (restoreTarget call) (Session.start disk)) ↔
      Sheltered call backup disk := by
  have held := Session.Holds.start (restoreTarget call) disk
  unfold stageRestored
  split
  next failing =>
    have idle : ¬ Begins call disk := fun begins => by
      rw [begins.2] at failing
      cases failing
    rw [Safe.of_error held]
    refine ⟨fun nothing => ⟨fun there => ?_, fun begins => absurd begins idle⟩, fun sheltered => ?_⟩
    · rw [show disk _ = none from nothing] at there
      cases there
    · by_contra there
      exact idle (sheltered.leftover (Option.isSome_iff_ne_none.mpr there)).1
  next works =>
  have begins : Begins call disk := ⟨accepted, by simpa using works⟩
  split
  next there =>
    split
    next stuck =>
      have fails : call.fails .clearStaging = true := by
        rcases Session.attempt_eq_none.mp stuck with fails | stuck
        · exact fails
        · simp [DiskOp.effect, there] at stuck
      rw [Safe.of_error held]
      refine ⟨fun nothing => ?_, fun sheltered => ?_⟩
      · rw [nothing] at there
        cases there
      · have cleared := (sheltered.leftover there).2
        rw [fails] at cleared
        cases cleared
    next cleared removed =>
      obtain ⟨clears, next, effect, rfl⟩ := Session.attempt_eq_some.mp removed
      obtain ⟨_, rfl⟩ := DiskOp.effect_remove.mp effect
      have same : Function.update (Session.start disk).disk
          (stagingName call (restoreTarget call)) none (restoreTarget call) =
            disk (restoreTarget call) := by
        rw [Function.update_of_ne (stagingName_ne call _), held.disk]
      rw [Safe.of_copied made found (held.move same)
        (by rw [Session.disk_move, Function.update_self])]
      exact ⟨fun copyable => ⟨fun _ => ⟨begins, clears⟩, fun _ => copyable⟩,
        fun sheltered => sheltered.copyable begins⟩
  next absent =>
    have nothing : (Session.start disk).disk (stagingName call (restoreTarget call)) = none := by
      simpa using absent
    rw [Safe.of_copied made found held nothing]
    exact ⟨fun copyable => ⟨fun there => absurd there absent, fun _ => copyable⟩,
      fun sheltered => sheltered.copyable begins⟩

namespace OneFile

def source : Entries := .cons "memory.db" (.file [1]) .nil

def manifest : AdminBackupManifest := ⟨adminApiVersion, "default", 7, "/data/default", 1, 1⟩

def text : String := "manifest"

def create : BackupCall where
  activeProfile := "default"
  sourceDir := "/data/default"
  destinationDir := "/backups"
  source := some source
  contained := .ok false
  destination := none
  checkpointed := .ok
  finalOutside := true
  stagingOutside := true
  createdAt := 7
  unique := "0123456789"
  encode := fun _ => some text
  fails := fun _ => false

def backup : Entries :=
  .cons backupManifestFile (.file (text ++ "\n").toUTF8.toList) source

def restore : RestoreCall where
  home := ""
  backupDir := "/backups/default-7-01234567"
  targetProfile := none
  replaceExisting := true
  backup := some backup
  decode := fun _ => some manifest
  configLoads := true
  unique := "abcdefghij"
  opens := fun files => (none, files)
  fails := fun _ => false

def fresh : Disk := fun _ => none

/-- A profile whose one file is empty. -/
def existing : Disk :=
  Function.update fresh "default" (some [(["memory.db"], .file []), ([], .directory)])

theorem created : (backupCreateBlocking create fresh).2.isOk = true := by decide +kernel

theorem listed :
    (backupCreateBlocking create fresh).1.disk (backupName create) =
      laid (writeBackupManifest text) (laid (copyDirRecursive source) none) ∧
    (laid (writeBackupManifest text) (laid (copyDirRecursive source) none)).isSome := by
  decide +kernel

theorem madeFrom : MadeFrom source backup := by
  cases answer : (backupCreateBlocking create fresh).2 with
  | error error =>
    have ok := created
    rw [answer] at ok
    cases ok
  | ok report =>
    refine ⟨create, fresh, _, report, Prod.ext rfl answer, rfl, fun found there path => ?_⟩
    obtain ⟨table, left, shown⟩ := laid_directory source
    rw [listed.1, copyDirRecursive, left] at there
    exact (HoldsBackup.of_laid shown there).entries path

/-- No step fails, and there is nothing to replace. -/
theorem sheltered : Sheltered restore backup fresh where
  leftover := nofun
  copyable := fun _ =>
    { interrupted := fun stopped => by
        rcases stopped with ⟨_, _, fails⟩ | fails
        · cases fails
        · cases fails
      carried := fun _ => ⟨rfl, rfl, fun _ => rfl, fun _ => ⟨rfl, fun _ => rfl⟩⟩ }

end OneFile

end OpenMemory.Daemon.Backup
