import OpenMemory.Daemon.Catalog

/-!
# The transactions of the control plane

The product database keeps, beside the catalog of principals and teams, the installation
principal, the projects, the workspaces that are mapped to them, and the rows of the spaces. Each
call is one transaction: it yields the database after it and an answer, or an error, and then the
database is as before. Activating a space reads its row again once the transaction has committed.

Ids are new values of their callers, and every call may fail in the storage. Timestamps are kept
where a row is read back as a whole.
-/

namespace OpenMemory.Daemon

open Foundation
open Merge (Blake3)

/-! ## Rows -/

abbrev ProjectId := UuidV7Id .project

inductive PathPlatform where
  | linux
  | macOs
  | windows
  deriving DecidableEq

def maxWorkspacePathBytes : Nat := 16 * 1024

def isAbsoluteForPlatform (platform : PathPlatform) (path : String) : Bool :=
  match platform with
  | .linux | .macOs => path.toList.head? = some '/'
  | .windows =>
    (match path.toList with
      | drive :: ':' :: separator :: _ =>
        drive.isAlpha && (separator = '\\' || separator = '/')
      | _ => false) ||
    path.toList.take 2 = ['\\', '\\']

/-- A canonical path, with the platform and the normalizer it is canonical for. -/
structure WorkspacePathKey where
  platform : PathPlatform
  normalizerVersion : UInt16
  path : String
  versioned : normalizerVersion ≠ 0
  bounded : path.utf8ByteSize ≤ maxWorkspacePathBytes
  printable : '\x00' ∉ path.toList
  absolute : isAbsoluteForPlatform platform path = true
  deriving DecidableEq

inductive SpaceContext where
  | global
  | project (id : ProjectId)
  deriving DecidableEq

inductive RootKey where
  | legacyRoot
  | space (id : SpaceId)
  deriving DecidableEq

structure Project where
  profile : String
  label : String

/-- A row of `workspace_projects`, but for the profile and the path it is unique for. Rows are
only written as active ones. -/
structure WorkspaceProject where
  workspaceId : String
  platform : PathPlatform
  normalizerVersion : UInt16
  project : ProjectId
  vcsFingerprint : Option String

/-- A row of `memory_spaces`, but for its id. -/
structure MemorySpace where
  profile : String
  owner : SpaceOwner
  context : SpaceContext
  rootKey : RootKey
  domainCount : UInt8
  manifestHash : String
  state : CatalogSpaceState
  catalogGeneration : UInt64
  createdAt : Int64
  updatedAt : Int64
  deriving DecidableEq

/-- What the authority of a space depends on. -/
def MemorySpace.toCatalog (row : MemorySpace) (id : SpaceId) : CatalogSpace :=
  ⟨id, row.owner, row.domainCount, row.state, row.catalogGeneration⟩

structure ProductSpaces where
  catalog : Catalog
  installationPrincipal : Option String
  projects : Table ProjectId Project
  /-- The rows under what they are unique for: profile and canonical path. -/
  workspaces : Table (String × String) WorkspaceProject
  spaces : Table SpaceId MemorySpace

/-! ## Checks -/

def maxLabelBytes : Nat := 256

def validateLabel (label : String) : Except String Unit :=
  refuseIf (label = "" ∨ maxLabelBytes < label.utf8ByteSize ∨ label.toList.any isControl)
    "label must be bounded non-control UTF-8"

def isBlake3Digest (value : String) : Bool :=
  (stripPrefix "blake3:" value).any fun digest =>
    digest.utf8ByteSize = 64 && digest.toList.all fun c =>
      c.isDigit || ('a' ≤ c && c ≤ 'f')

def workspaceRowId [Blake3] (profile : String) (workspace : WorkspacePathKey) : String :=
  "workspace:" ++ (Blake3.hash (utf8 "openmemory/workspace-row/v1" ++
    leBytes 8 profile.utf8ByteSize ++ utf8 profile ++
    leBytes 8 workspace.path.utf8ByteSize ++ utf8 workspace.path)).toText

namespace ProductSpaces

def empty : ProductSpaces :=
  ⟨⟨.empty, .empty, .empty, 0, 0⟩, none, .empty, .empty, .empty⟩

/-! ## Transactions -/

def ensureInstallationPrincipal (store : ProductSpaces) (fresh : SpaceId) :
    Except String (ProductSpaces × String) :=
  match store.installationPrincipal with
  | some principal => .ok (store, principal)
  | none => do
      let principal := "local:" ++ fresh.toText
      let principals ← store.catalog.principals.insert principal ⟨true, 1⟩
        "UNIQUE constraint failed: local_principals.id"
      .ok ({ store with
        catalog := { store.catalog with principals, credentialGeneration := 1 }
        installationPrincipal := some principal }, principal)

def createTeam (store : ProductSpaces) (label : String) (fresh : SpaceId) :
    Except String (ProductSpaces × String) := do
  let _ ← validateLabel label
  let team := "team:" ++ fresh.toText
  let teams ← store.catalog.teams.insert team ⟨true, 1⟩ "UNIQUE constraint failed: local_teams.id"
  let catalog ← { store.catalog with teams }.bumpCatalogGeneration
  .ok ({ store with catalog }, team)

def grantTeamRole (store : ProductSpaces) (team principal : String) (role : SpaceRole)
    (expiresAt : Option Int64) (now : Int64) : Except String ProductSpaces := do
  let catalog ← store.catalog.grantTeamRole team principal role expiresAt now
  .ok { store with catalog }

def revokeTeamMember (store : ProductSpaces) (team principal : String) :
    Except String (ProductSpaces × Bool) := do
  let (catalog, removed) ← store.catalog.revokeTeamMember team principal
  .ok ({ store with catalog }, removed)

def createProject (store : ProductSpaces) (profile label : String) (fresh : ProjectId) :
    Except String (ProductSpaces × ProjectId) := do
  let _ ← validateLabel label
  let projects ← store.projects.insert fresh ⟨profile, label⟩
    "UNIQUE constraint failed: projects.id"
  let catalog ← store.catalog.bumpCatalogGeneration
  .ok ({ store with projects, catalog }, fresh)

/-- `map_workspace`: the row of the profile and the path is written, whichever platform and
normalizer it was for. -/
def mapWorkspace [Blake3] (store : ProductSpaces) (profile : String)
    (workspace : WorkspacePathKey) (project : ProjectId) (vcsFingerprint : Option String) :
    Except String ProductSpaces := do
  refuseIf (vcsFingerprint.any fun value => maxLabelBytes < value.utf8ByteSize)
    "workspace VCS fingerprint exceeds its bound"
  let workspaceId := workspaceRowId profile workspace
  refuseIf (¬ (store.projects.get? project).any fun row => row.profile = profile)
    "workspace project is absent from this profile"
  refuseIf (store.workspaces.entries.any fun entry =>
      entry.1 ≠ (profile, workspace.path) ∧ entry.2.workspaceId = workspaceId)
    "UNIQUE constraint failed: workspace_projects.workspace_id"
  let workspaces := store.workspaces.put (profile, workspace.path)
    ⟨workspaceId, workspace.platform, workspace.normalizerVersion, project, vcsFingerprint⟩
  let catalog ← store.catalog.bumpCatalogGeneration
  .ok { store with workspaces, catalog }

def projectForWorkspace (store : ProductSpaces) (profile : String)
    (workspace : WorkspacePathKey) : Option ProjectId :=
  ((store.workspaces.get? (profile, workspace.path)).filter fun row =>
    row.platform = workspace.platform ∧
      row.normalizerVersion = workspace.normalizerVersion).map WorkspaceProject.project

/-- A generation that is stored as a signed integer. -/
def signedGeneration (generation : UInt64) : Except String Unit :=
  refuseIf (¬ generation.toNat < 2 ^ 63) "catalog generation overflow"

/-- `insert_space`, of a row whose generation is that of the catalog after it. -/
def insertSpace (store : ProductSpaces) (id : SpaceId) (row : MemorySpace) :
    Except String (ProductSpaces × MemorySpace) := do
  refuseIf (row.domainCount < 1 ∨ 64 < row.domainCount) "space domain count must be 1..=64"
  refuseIf (¬ isBlake3Digest row.manifestHash) "space manifest hash must be canonical blake3"
  let catalog ← store.catalog.bumpCatalogGeneration
  let _ ← signedGeneration catalog.catalogGeneration
  refuseIf (store.spaces.entries.any fun entry => entry.2.rootKey = row.rootKey)
    "UNIQUE constraint failed: memory_spaces.root_key"
  refuseIf (store.spaces.entries.any fun entry =>
      entry.2.profile = row.profile ∧ entry.2.owner = row.owner ∧ entry.2.context = row.context)
    "UNIQUE constraint failed: memory_spaces.profile, owner_kind, owner_id, context_kind, project_key"
  let row := { row with catalogGeneration := catalog.catalogGeneration, updatedAt := row.createdAt }
  let spaces ← store.spaces.insert id row "UNIQUE constraint failed: memory_spaces.id"
  .ok ({ store with catalog, spaces }, row)

/-- The transaction of `activate_space`. -/
def activateSpace (store : ProductSpaces) (id : SpaceId) (manifestHash : String) (now : Int64) :
    Except String ProductSpaces := do
  refuseIf (¬ isBlake3Digest manifestHash) "space manifest hash must be canonical blake3"
  let catalog ← store.catalog.bumpCatalogGeneration
  let _ ← signedGeneration catalog.catalogGeneration
  refuseIf (¬ (store.spaces.get? id).any fun row =>
      row.state = .creating ∨ row.state = .active) "space cannot transition to active"
  .ok { store with
    catalog
    spaces := store.spaces.modify id fun row =>
      { row with
        state := .active
        manifestHash
        catalogGeneration := catalog.catalogGeneration
        updatedAt := now } }

/-! ## Calls -/

/-- The calls that change the control plane. Activation reads its row again after it has
committed, which may fail too. -/
inductive Call where
  | ensureInstallationPrincipal (fresh : SpaceId)
  | createTeam (label : String) (fresh : SpaceId)
  | grantTeamRole (team principal : String) (role : SpaceRole) (expiresAt : Option Int64)
      (now : Int64)
  | revokeTeamMember (team principal : String)
  | createProject (profile label : String) (fresh : ProjectId)
  | mapWorkspace (profile : String) (workspace : WorkspacePathKey) (project : ProjectId)
      (vcsFingerprint : Option String)
  | insertSpace (id : SpaceId) (row : MemorySpace)
  | activateSpace (id : SpaceId) (manifestHash : String) (now : Int64) (reread : Option String)

/-- What the transaction of a call makes of the store. -/
def transaction [Blake3] (store : ProductSpaces) : Call → Except String ProductSpaces
  | .ensureInstallationPrincipal fresh => (store.ensureInstallationPrincipal fresh).map Prod.fst
  | .createTeam label fresh => (store.createTeam label fresh).map Prod.fst
  | .grantTeamRole team principal role expiresAt now =>
    store.grantTeamRole team principal role expiresAt now
  | .revokeTeamMember team principal => (store.revokeTeamMember team principal).map Prod.fst
  | .createProject profile label fresh => (store.createProject profile label fresh).map Prod.fst
  | .mapWorkspace profile workspace project vcsFingerprint =>
    store.mapWorkspace profile workspace project vcsFingerprint
  | .insertSpace id row => (store.insertSpace id row).map Prod.fst
  | .activateSpace id manifestHash now _ => store.activateSpace id manifestHash now

/-- The failure of what a call does after its commit. -/
def Call.afterCommit : Call → Option String
  | .activateSpace _ _ _ reread => reread
  | _ => none

/-- A call, whose transaction may fail in the storage: the store after it, and whether it
succeeded. -/
def perform [Blake3] (store : ProductSpaces) (call : Call) (failure : Option String) :
    ProductSpaces × Except String Unit :=
  match failure with
  | some error => (store, .error error)
  | none =>
    match store.transaction call with
    | .error error => (store, .error error)
    | .ok next =>
      match call.afterCommit with
      | some error => (next, .error error)
      | none => (next, .ok ())

/-- The store after a history of calls. -/
def history [Blake3] (store : ProductSpaces) (calls : List (Call × Option String)) :
    ProductSpaces :=
  calls.foldl (fun found entry => (found.perform entry.1 entry.2).1) store

/-! ## Authority -/

/-- The answer of `role_for`, for the row of a space. -/
def roleAnswer (store : ProductSpaces) (principal : String) (id : SpaceId) (row : MemorySpace)
    (now : Int64) : Except AuthorityError (Option SpaceRole) :=
  (roleFor principal (row.toCatalog id) now).run.answeredBy store.catalog.answer

/-- The answer of `authority_snapshot_for`, for the row of a space. -/
def snapshotAnswer [Blake3] (store : ProductSpaces) (principal : String) (id : SpaceId)
    (row : MemorySpace) (now : Int64) : Except AuthorityError Graph.AuthoritySnapshot :=
  (authoritySnapshotFor principal (row.toCatalog id) now).run.answeredBy store.catalog.answer

end ProductSpaces

end OpenMemory.Daemon
