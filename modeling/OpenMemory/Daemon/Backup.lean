import OpenMemory.Foundation.Directories
import OpenMemory.Foundation.ByteCodec

/-!
# Backup and restore of a profile

A profile is a directory of the data root. A backup is made by copying it into a staging
directory beside the backup, writing a manifest there, and renaming the staging directory. A
restore copies a backup without its manifest into a staging directory of the data root, opens
the copied stores, moves an existing profile aside and renames the staging directory to the
profile.

Both run as sequences of operations on the directories beside the one they make. Every operation
may fail, and which do is told by a function from the operations. What the databases of a
directory do to its files when they are opened, how a manifest is written as text, and what the
configuration file holds are parameters. The details of an error, which repeat its paths and the
text of the system's error, are left out.
-/

namespace OpenMemory.Daemon.Backup

open Foundation Foundation.Directories

/-! ## Errors and reports -/

inductive AdminErrorCode where
  | authRequired
  | authInvalid
  | bindNonLoopback
  | configInvalid
  | daemonNotFound
  | daemonUnreachable
  | profileNotInitialized
  | runtimeMetadataInvalid
  | schemaTooNew
  | storeUnreadable
  | modelMissing
  | tokenRotationFailed
  | invalidRequest
  | entityNotFound
  | clientNotFound
  | clientConfigUnreadable
  | clientConfigStale
  | integrationVerifyFailed
  | backupPreflightFailed
  | restorePreflightFailed
  | jobNotFound
  | conflict
  | internal

structure AdminError where
  code : AdminErrorCode
  message : String
  hint : Option String
  retryable : Bool

structure AdminDiagnostic where
  component : String
  code : AdminErrorCode
  message : String
  hint : Option String

def backupManifestFile : String := "openmemory-backup.json"

def adminApiVersion : String := "v1alpha1"

structure AdminBackupManifest where
  apiVersion : String
  profile : String
  createdAtUnixSecs : Nat
  sourceDir : String
  filesCopied : Nat
  bytesCopied : Nat

def storeErrorCode (message : String) : AdminErrorCode :=
  if "newer than supported".toList <:+: message.toList then .schemaTooNew else .storeUnreadable

def storeAdminError (message error : String) : AdminError :=
  ⟨storeErrorCode error, message, none, false⟩

def adminRestoreIo : AdminError :=
  ⟨.restorePreflightFailed, "restore filesystem operation failed", none, false⟩

def adminBackupIo : AdminError :=
  ⟨.backupPreflightFailed, "backup filesystem operation failed", none, false⟩

def configInvalid : AdminError :=
  ⟨.configInvalid, "OpenMemory config could not be loaded", some "Fix config.toml and retry.",
    false⟩

/-- The first eight characters of a new id. -/
def shortId (unique : String) : String := String.ofList (unique.toList.take 8)

def profileDataDir (home profile : String) : String := home ++ "/data/" ++ profile

/-! ## Copying -/

/-- The operations of `copy_dir_recursive` into a named directory. -/
def copyDirRecursive (source : Entries) : List FileOp :=
  (Node.directory source).copied []

/-- The entries of a backup but its manifest, copied in order. -/
def copyPayloadEntries : Entries → List FileOp
  | .nil => []
  | .cons name node rest =>
    if name = backupManifestFile then copyPayloadEntries rest
    else node.copied [name] ++ copyPayloadEntries rest

def copyBackupPayload (source : Entries) : List FileOp :=
  .createDir [] :: .readDir [] :: (copyPayloadEntries source ++ [.syncDir []])

/-! ## Restoring -/

/-- The operations of a restore. Those that copy are told apart by what they copy. -/
inductive RestoreStep where
  | readManifest
  | scanBackup
  | createDataRoot
  | clearStaging
  | copying (op : FileOp)
  | syncStaging
  | setAside
  | syncAside
  | place
  | putBack
  | cleanUp
  | syncPlaced

/-- A restore: the request, what it finds, and which of its operations fail. -/
structure RestoreCall where
  home : String
  backupDir : String
  targetProfile : Option String
  replaceExisting : Bool
  /-- The entries of the backup directory, if it is a directory. -/
  backup : Option Entries
  /-- `serde_json::from_str`. -/
  decode : String → Option AdminBackupManifest
  configLoads : Bool
  /-- The new id the names of the staging and the previous directory are made from. -/
  unique : String
  /-- `DomainStore::open_existing` on copied files: its error, and the files it leaves. -/
  opens : Listing → Option String × Listing
  fails : RestoreStep → Bool

structure AdminRestorePreflightResponse where
  backupDir : String
  manifest : Option AdminBackupManifest
  diagnostics : List AdminDiagnostic

def AdminRestorePreflightResponse.ready (response : AdminRestorePreflightResponse) : Bool :=
  response.diagnostics.isEmpty

structure AdminRestoreReport where
  backupDir : String
  restoredProfile : String
  restoredDir : String
  replacedExisting : Bool
  previousDir : Option String

def restoreDiagnostic (message : String) (hint : Option String) : AdminDiagnostic :=
  ⟨"restore", .restorePreflightFailed, message, hint⟩

/-- `std::fs::read_to_string`. -/
def readText (bytes : Option Directories.Bytes) (fails : Bool) : Option String :=
  if fails then none else bytes.bind fun found => String.fromUTF8? ⟨found.toArray⟩

section Restore

variable (call : RestoreCall)

/-- What is found wrong with a manifest that could be decoded. -/
def manifestDiagnostics (manifest : AdminBackupManifest) : List AdminDiagnostic :=
  let (files, bytes) := (call.backup.getD .nil).size
  (if manifest.apiVersion ≠ adminApiVersion then
      [restoreDiagnostic "backup manifest API version is not supported"
        (some ("Expected backup API version " ++ adminApiVersion ++ "."))]
    else []) ++
  (if call.fails .scanBackup then
      [restoreDiagnostic "backup directory could not be scanned" none]
    else if files < min (manifest.filesCopied + 1) (2 ^ 64 - 1) ∨ bytes < manifest.bytesCopied then
      [restoreDiagnostic "backup contents do not match the manifest"
        (some "Create a new backup or choose an intact backup directory.")]
    else [])

def restorePreflight : AdminRestorePreflightResponse :=
  let missing :=
    if call.backup.isNone then
      [restoreDiagnostic "backup directory does not exist"
        (some "Choose a directory produced by `POST /admin/backup/create`.")]
    else []
  let bytes := (Node.directory (call.backup.getD .nil)).bytes [backupManifestFile]
  match readText bytes (call.fails .readManifest) with
  | none =>
    ⟨call.backupDir, none, missing ++ [restoreDiagnostic "backup manifest could not be read" none]⟩
  | some text =>
    match call.decode text with
    | none =>
      ⟨call.backupDir, none, missing ++ [restoreDiagnostic "backup manifest is invalid" none]⟩
    | some manifest =>
      ⟨call.backupDir, some manifest, missing ++ manifestDiagnostics call manifest⟩

/-- On a system whose separator is the slash. -/
def validateRestoreTargetProfile (profile : String) : Option AdminError :=
  if (trim profile).isEmpty ∨ '/' ∈ profile.toList ∨ '\\' ∈ profile.toList ∨ profile = "." ∨
      profile = ".." then
    some ⟨.invalidRequest, "restore target profile is invalid",
      some "Use a single profile name without path separators or parent segments.", false⟩
  else none

/-- The checks before the first operation that changes the disk: the profile to restore to. -/
def acceptRestore (disk : Disk) : Except AdminError String :=
  let preflight := restorePreflight call
  if ¬ preflight.ready then
    .error ⟨.restorePreflightFailed, "restore preflight failed",
      some "Resolve diagnostics before restoring a backup.", false⟩
  else
    match preflight.manifest with
    | none =>
      .error ⟨.restorePreflightFailed, "restore manifest was not available after preflight",
        none, false⟩
    | some manifest =>
      let target := call.targetProfile.getD manifest.profile
      match validateRestoreTargetProfile target with
      | some error => .error error
      | none =>
        if (disk target).isSome ∧ ¬ call.replaceExisting then
          .error ⟨.conflict, "restore target profile already exists",
            some "Set replace_existing to true after taking a fresh backup.", false⟩
        else if ¬ call.configLoads then .error configInvalid
        else .ok target

def stagingName (target : String) : String :=
  ".restore-" ++ target ++ "-" ++ shortId call.unique ++ ".tmp"

def previousName (target : String) : String :=
  ".restore-previous-" ++ target ++ "-" ++ shortId call.unique

/-- What has become of the disk, and the answer. -/
abbrev Restored := Session × Except AdminError AdminRestoreReport

/-- Renames the staging directory to the profile. -/
def placeRestored (target : String) (oldDir : Option String) (s : Session) : Restored :=
  match s.attempt (call.fails .place) (.rename (stagingName call target) target) with
  | none =>
    let s := match oldDir with
      | some old => s.tryTo (call.fails .putBack) (.rename old target)
      | none => s
    (s.tryTo (call.fails .cleanUp) (.remove (stagingName call target)), .error adminRestoreIo)
  | some s =>
    match s.attempt (call.fails .syncPlaced) .sync with
    | none => (s, .error adminRestoreIo)
    | some s =>
      (s, .ok {
        backupDir := call.backupDir
        restoredProfile := target
        restoredDir := profileDataDir call.home target
        replacedExisting := oldDir.isSome
        previousDir := oldDir.map (profileDataDir call.home) })

/-- Moves an existing profile aside. -/
def swapRestored (target : String) (s : Session) : Restored :=
  if (s.disk target).isSome then
    match s.attempt (call.fails .setAside) (.rename target (previousName call target)) with
    | none => (s, .error adminRestoreIo)
    | some s =>
      match s.attempt (call.fails .syncAside) .sync with
      | none => (s, .error adminRestoreIo)
      | some s => placeRestored call target (some (previousName call target)) s
  else placeRestored call target none s

/-- Opens the copied stores. -/
def openRestored (target : String) (s : Session) : Restored :=
  let (error, files) := call.opens ((s.disk (stagingName call target)).getD [])
  let s := s.move (Function.update s.disk (stagingName call target) (some files))
  match error with
  | some error => (s, .error (storeAdminError "restored memory store is unreadable" error))
  | none => swapRestored call target s

/-- Copies the backup into the staging directory. -/
def copyRestored (target : String) (s : Session) : Restored :=
  match s.performAll (fun op => call.fails (.copying op)) (stagingName call target)
      (copyBackupPayload (call.backup.getD .nil)) with
  | (s, false) =>
    (s.tryTo (call.fails .cleanUp) (.remove (stagingName call target)), .error adminRestoreIo)
  | (s, true) =>
    match s.attempt (call.fails .syncStaging) .sync with
    | none =>
      (s.tryTo (call.fails .cleanUp) (.remove (stagingName call target)), .error adminRestoreIo)
    | some s => openRestored call target s

/-- Clears what an earlier restore may have left under the name of the staging directory. -/
def stageRestored (target : String) (s : Session) : Restored :=
  if call.fails .createDataRoot then (s, .error adminRestoreIo)
  else if (s.disk (stagingName call target)).isSome then
    match s.attempt (call.fails .clearStaging) (.remove (stagingName call target)) with
    | none => (s, .error adminRestoreIo)
    | some s => copyRestored call target s
  else copyRestored call target s

def restoreBlocking (disk : Disk) : Restored :=
  match acceptRestore call disk with
  | .error error => (Session.start disk, .error error)
  | .ok target => stageRestored call target (Session.start disk)

end Restore

/-! ## Backing up -/

inductive BackupStep where
  | scanSource
  | createDestination
  | syncParent
  | clearStaging
  | copying (op : FileOp)
  | syncStaging
  | scanStaging
  | manifest (op : FileOp)
  | place
  | cleanUp
  | syncPlaced

/-- A backup: the request, what it finds, and which of its operations fail. -/
structure BackupCall where
  activeProfile : String
  sourceDir : String
  destinationDir : String
  /-- The entries of the profile's directory, if there is one. -/
  source : Option Entries
  /-- `path_is_same_or_descendant` of the destination and the source. -/
  contained : Except String Bool
  /-- `backup_destination_diagnostic`. -/
  destination : Option AdminDiagnostic
  /-- `checkpoint_profile_for_backup`: the files the checkpoint of the databases leaves. -/
  checkpointed : Entries → Except AdminError Entries
  /-- Whether `ensure_destination_outside_source` accepts the final and the staging directory. -/
  finalOutside : Bool
  stagingOutside : Bool
  createdAt : Nat
  unique : String
  /-- `serde_json::to_string_pretty`. -/
  encode : AdminBackupManifest → Option String
  fails : BackupStep → Bool

structure AdminBackupPreflightResponse where
  profile : String
  sourceDir : String
  destinationDir : String
  estimatedFiles : Nat
  estimatedBytes : Nat
  diagnostics : List AdminDiagnostic

def AdminBackupPreflightResponse.ready (response : AdminBackupPreflightResponse) : Bool :=
  response.diagnostics.isEmpty

structure AdminBackupCreateReport where
  backupDir : String
  manifestPath : String
  manifest : AdminBackupManifest

def backupDiagnostic (message : String) (hint : Option String) : AdminDiagnostic :=
  ⟨"backup", .backupPreflightFailed, message, hint⟩

section Create

variable (call : BackupCall)

/-- What is found wrong with where the source and the destination are. -/
def placeDiagnostics : List AdminDiagnostic :=
  if call.source.isNone then
    [⟨"backup", .profileNotInitialized, "active profile is not initialized on disk",
      some "Run `openmemory init` for this profile."⟩]
  else
    match call.contained with
    | .ok true =>
      [backupDiagnostic "backup destination cannot be inside the profile data directory"
        (some "Choose a destination outside the active profile data directory.")]
    | .ok false => []
    | .error _ =>
      [backupDiagnostic "backup destination containment could not be checked"
        (some "Choose a destination with readable parent directories.")]

def backupPreflight : AdminBackupPreflightResponse :=
  let found := placeDiagnostics call ++ call.destination.toList
  if call.fails .scanSource then
    ⟨call.activeProfile, call.sourceDir, call.destinationDir, 0, 0,
      found ++ [backupDiagnostic "profile directory could not be scanned" none]⟩
  else
    let (files, bytes) := (call.source.getD .nil).size
    ⟨call.activeProfile, call.sourceDir, call.destinationDir, files, bytes, found⟩

def backupName : String :=
  call.activeProfile ++ "-" ++ toString call.createdAt ++ "-" ++ shortId call.unique

def backupStagingName : String := "." ++ backupName call ++ ".tmp"

abbrev Created := Session × Except AdminError AdminBackupCreateReport

/-- The manifest of a copied source. -/
def manifestOf (source : Entries) : AdminBackupManifest where
  apiVersion := adminApiVersion
  profile := call.activeProfile
  createdAtUnixSecs := call.createdAt
  sourceDir := call.sourceDir
  filesCopied := source.size.1
  bytesCopied := source.size.2

def writeBackupManifest (text : String) : List FileOp :=
  [.createNew [backupManifestFile],
    .write [backupManifestFile] (text ++ "\n").toUTF8.toList,
    .syncFile [backupManifestFile],
    .syncDir []]

/-- Renames the staging directory to the backup. -/
def placeBackup (manifest : AdminBackupManifest) (s : Session) : Created :=
  if (s.disk (backupName call)).isSome then
    (s.tryTo (call.fails .cleanUp) (.remove (backupStagingName call)),
      .error ⟨.conflict, "backup destination already exists", none, false⟩)
  else
    match s.attempt (call.fails .place) (.rename (backupStagingName call) (backupName call)) with
    | none =>
      (s.tryTo (call.fails .cleanUp) (.remove (backupStagingName call)), .error adminBackupIo)
    | some s =>
      match s.attempt (call.fails .syncPlaced) .sync with
      | none => (s, .error adminBackupIo)
      | some s =>
        (s, .ok {
          backupDir := call.destinationDir ++ "/" ++ backupName call
          manifestPath :=
            call.destinationDir ++ "/" ++ backupName call ++ "/" ++ backupManifestFile
          manifest := manifest })

/-- Writes the manifest of the copied files. -/
def describeBackup (source : Entries) (s : Session) : Created :=
  if call.fails .scanStaging then (s, .error adminBackupIo)
  else
    match call.encode (manifestOf call source) with
    | none => (s, .error ⟨.internal, "backup manifest could not be encoded", none, true⟩)
    | some text =>
      match s.performAll (fun op => call.fails (.manifest op)) (backupStagingName call)
          (writeBackupManifest text) with
      | (s, false) => (s, .error adminBackupIo)
      | (s, true) => placeBackup call (manifestOf call source) s

/-- Copies the source into the staging directory. -/
def copyBackup (source : Entries) (s : Session) : Created :=
  match s.performAll (fun op => call.fails (.copying op)) (backupStagingName call)
      (copyDirRecursive source) with
  | (s, false) =>
    (s.tryTo (call.fails .cleanUp) (.remove (backupStagingName call)), .error adminBackupIo)
  | (s, true) =>
    match s.attempt (call.fails .syncStaging) .sync with
    | none =>
      (s.tryTo (call.fails .cleanUp) (.remove (backupStagingName call)), .error adminBackupIo)
    | some s => describeBackup call source s

/-- Clears the name of the staging directory. -/
def stageBackup (source : Entries) (s : Session) : Created :=
  if ¬ call.finalOutside ∨ ¬ call.stagingOutside then (s, .error adminBackupIo)
  else if (s.disk (backupStagingName call)).isSome then
    match s.attempt (call.fails .clearStaging) (.remove (backupStagingName call)) with
    | none => (s, .error adminBackupIo)
    | some s => copyBackup call source s
  else copyBackup call source s

/-- The backup of the active profile, on the disk of the destination directory. -/
def backupCreateBlocking (disk : Disk) : Created :=
  let s := Session.start disk
  if ¬ (backupPreflight call).ready then
    (s, .error ⟨.backupPreflightFailed, "backup preflight failed",
      some "Resolve diagnostics before creating a backup.", false⟩)
  else if call.fails .createDestination then
    (s, .error ⟨.backupPreflightFailed, "backup destination could not be created", none, false⟩)
  else if call.fails .syncParent then (s, .error adminBackupIo)
  else
    match call.checkpointed (call.source.getD .nil) with
    | .error error => (s, .error error)
    | .ok source => stageBackup call source s

end Create

end OpenMemory.Daemon.Backup
