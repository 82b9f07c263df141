import OpenMemory.Foundation.Lines
import OpenMemory.Foundation.Runs
import OpenMemory.Graph.Requests

/-!
# Opening and migrating a profile directory

A profile holds its stores at the root, or, with several domains, in a directory
for them beside a manifest that pins their number. A migration builds the new
layout in a staging directory, writes a sentinel, moves the old layout into a
backup directory and the staged one into place, and removes the sentinel.

What matters here is which entry stands where. So a profile is three directories,
of which the backup and the staging directory may be missing, and a file or a
directory that is moved as a whole is one entry. The store families below the
entries are not looked into: what a profile opens as is the entries it opens.
-/

namespace OpenMemory.Engine.Migration

open Foundation OpenMemory.Graph

/-! ## Directories -/

/-- A file or a directory. -/
inductive Node where
  | file (content : Bytes)
  | directory (entries : List (String × Node))

abbrev Directory := String → Option Node

inductive Place where
  | root
  /-- `.migrate-backup`. -/
  | backup
  /-- `.migrate-staging`. -/
  | staging
  deriving DecidableEq

abbrev Profile := Place → Option Directory

def Profile.get (p : Profile) (place : Place) : Directory := (p place).getD fun _ => none

def Profile.set (p : Profile) (place : Place) (directory : Directory) : Profile :=
  Function.update p place (some directory)

def memoryDbFile : String := "memory.sqlite"
def domainManifestFile : String := "domains.toml"
def domainsDir : String := "domains"
def migrateSentinelFile : String := ".migrate-intent"
def migrateBackupDir : String := ".migrate-backup"
def engineJournalDir : String := "engine-journal"

/-- Store files of a layout with one domain. -/
def singleStoreEntries : List String :=
  [memoryDbFile, "fulltext.sqlite", "bm25.json", "metadata.sqlite", "vectors.bin",
    "vectors.usearch", "vectors.usearch.meta.json", "embeddings"]

/-! ## The manifest -/

structure Manifest where
  version : UInt32
  domains : Nat

/-- The toml crate. -/
class Toml where
  fromStr : String → Except String Manifest
  toStringPretty : Manifest → String

section Open

variable [Toml]

/-- The domain count pinned by the manifest, if there is one. -/
def pinnedDomains (dataDir : String) (root : Directory) : MemoryResult (Option Nat) :=
  match root domainManifestFile with
  | none => .ok none
  | some (.directory _) => .error (.io "Is a directory (os error 21)")
  | some (.file content) =>
    match fromUtf8 content with
    | none => .error (.io "stream did not contain valid UTF-8")
    | some text =>
      match Toml.fromStr text with
      | .ok manifest => .ok (some (max manifest.domains 1))
      | .error error => .error (.invalidInput
          s!"corrupt domain manifest {dataDir}/{domainManifestFile}: {error}")

/-- The domain count of a profile, one without a manifest. -/
def manifestDomains (dataDir : String) (root : Directory) : MemoryResult Nat := do
  pure ((← pinnedDomains dataDir root).getD 1)

/-! ## Opening -/

/-- The entries that a facade has opened its stores in. -/
inductive Opened where
  | single (entries : Directory)
  | partitioned (domains : Nat) (tree : Option Node)

/-- The store entries of a directory. -/
def storeEntries (directory : Directory) : Directory := fun name =>
  if name ∈ singleStoreEntries then directory name else none

/-- The stores of a layout with the given number of domains. -/
def openStores (directory : Directory) (domains : Nat) : Opened :=
  if domains = 1 then .single (storeEntries directory)
  else .partitioned domains (directory domainsDir)

def interruptedMigration (dataDir : String) : MemoryError :=
  .invalidInput (s!"profile at {dataDir} has an interrupted domain migration " ++
    s!"({dataDir}/{migrateSentinelFile}); restore the layout from " ++
    s!"{dataDir}/{migrateBackupDir} or re-run `openmemory migrate-domains`")

/-- `DomainStore::open_inner`. A profile without a layout is opened as a fresh one,
with no entries yet. -/
def openInner (dataDir : String) (p : Profile) (requested : Nat) : MemoryResult Opened :=
  let domains := max requested 1
  let root := p.get .root
  if (root migrateSentinelFile).isSome then
    .error (interruptedMigration dataDir)
  else
    match pinnedDomains dataDir root with
    | .error error => .error error
    | .ok (some pinned) =>
      if pinned ≠ domains then
        .error (.invalidInput (s!"profile at {dataDir} is partitioned into {pinned} domains but " ++
          s!"the configuration requests {domains}; changing the domain count requires an " ++
          "explicit migration"))
      else .ok (openStores root domains)
    | .ok none =>
      if 1 < domains ∧ (root memoryDbFile).isSome then
        .error (.invalidInput (s!"profile at {dataDir} holds single-store data; partitioning " ++
          s!"it into {domains} domains requires an explicit migration"))
      else .ok (openStores root domains)

/-! ## Migrating -/

/-- `metadata().len()`; a directory has a length of its own. -/
def Node.len : Node → Nat
  | .file content => content.length
  | .directory _ => 4096

def requireEmptyJournals (dataDir : String) (root : Directory) : MemoryResult Unit :=
  match root engineJournalDir with
  | none => .ok ()
  | some (.file _) => .error (.io "Not a directory (os error 20)")
  | some (.directory entries) =>
    match entries.find? fun entry => 0 < entry.2.len with
    | none => .ok ()
    | some entry => .error (.invalidInput
        (s!"engine journal {dataDir}/{engineJournalDir}/{entry.1} is not empty; shut the " ++
          "engine down cleanly (it drains and checkpoints on shutdown) before migrating"))

def interruptedSwap (dataDir : String) : MemoryError :=
  .invalidInput (s!"a previous migration of {dataDir} was interrupted mid-swap; " ++
    s!"restore the layout from {dataDir}/{migrateBackupDir} before retrying")

/-- The checks of `migrate_domains` before it builds anything. -/
def migratePreconditions (dataDir : String) (p : Profile) (toDomains : Nat) :
    MemoryResult Nat := do
  let toDomains := max toDomains 1
  let root := p.get .root
  refuseIf (root migrateSentinelFile).isSome (interruptedSwap dataDir)
  refuseIf (p .backup).isSome (.invalidInput ("backup from a previous migration exists at " ++
    s!"{dataDir}/{migrateBackupDir}; remove it first"))
  let fromDomains ← manifestDomains dataDir root
  refuseIf (fromDomains = 1 ∧ (root memoryDbFile).isNone)
    (.invalidInput (s!"no store found at {dataDir}; migrating a profile that does not " ++
      "exist              would create an empty one"))
  refuseIf (fromDomains = toDomains)
    (.invalidInput s!"profile already has {toDomains} domain(s); nothing to migrate")
  requireEmptyJournals dataDir root
  pure fromDomains

end Open

/-! ## The swap -/

/-- One file operation of the swap. -/
inductive Operation where
  | writeSentinel (fromDomains toDomains : Nat)
  | createBackup
  /-- Move an entry; where it is `required`, it must exist. -/
  | rename (required : Bool) (source target : Place) (name : String)
  /-- `remove_dir_all` gets at an entry of the staging directory, or at the whole. -/
  | removeStaged (name : String)
  | removeStaging
  | fsyncRoot
  | removeSentinel

/-- The profile after an operation that does not fail. -/
def apply (p : Profile) : Operation → Option Profile
  | .writeSentinel fromDomains toDomains =>
    let content := utf8 s!"migrating domains: {fromDomains} -> {toDomains}\n"
    some (p.set .root (Function.update (p.get .root) migrateSentinelFile (some (.file content))))
  | .createBackup => some (p.set .backup (p.get .backup))
  | .rename required source target name =>
    match p.get source name with
    | none => if required then none else some p
    | some node =>
      let moved := p.set source (Function.update (p.get source) name none)
      if (p target).isSome then
        some (moved.set target (Function.update (p.get target) name (some node)))
      else none
  | .removeStaged name =>
    some (Function.update p .staging
      ((p .staging).map fun directory => Function.update directory name none))
  | .removeStaging => some (Function.update p .staging none)
  | .fsyncRoot => some p
  | .removeSentinel =>
    some (p.set .root (Function.update (p.get .root) migrateSentinelFile none))

/-- The entries that a layout consists of. -/
def layoutNames (domains : Nat) : List String :=
  if 1 < domains then [domainsDir, domainManifestFile] else singleStoreEntries

/-- Move a layout; the files of a single store are moved where they exist. -/
def moveLayout (domains : Nat) (source target : Place) : List Operation :=
  (layoutNames domains).map (.rename (decide (1 < domains)) source target)

def moveLayoutToBackup (fromDomains : Nat) : List Operation :=
  moveLayout fromDomains .root .backup

def moveStagingIntoPlace (toDomains : Nat) : List Operation :=
  moveLayout toDomains .staging .root

/-- What `remove_dir_all` manages to remove: any entries, and perhaps the whole. -/
def removeStagingDir (removed : List String) (whole : Bool) : List Operation :=
  removed.map .removeStaged ++ if whole then [.removeStaging] else []

/-- From the first write of the sentinel to the end of `migrate_domains`. -/
def swap (fromDomains toDomains : Nat) (removed : List String) (whole : Bool) : List Operation :=
  .writeSentinel fromDomains toDomains :: .fsyncRoot :: .createBackup ::
    (moveLayoutToBackup fromDomains ++ (moveStagingIntoPlace toDomains ++
      (removeStagingDir removed whole ++ [.fsyncRoot, .removeSentinel, .fsyncRoot])))

end OpenMemory.Engine.Migration
