import OpenMemory.Core.Space
import OpenMemory.Foundation.Runs
import OpenMemory.Foundation.Table
import OpenMemory.Graph.Types

/-!
# The manager of named spaces

The manager keeps a bounded map of open spaces. Handles and stores are shared
references: a caller may keep the handle, or clone the store out of it and let
the handle go. At the bound the manager drops the handles that only its map
refers to, and a dropped handle releases the lifetime lock of its space.

A reference is written as the value it refers to, so the references that callers
hold are lists, and the strong count of a handle is the number of times it occurs
in the map and among them. Every store carries the number of the opening that
made it, which tells two stores of one space apart.
-/

namespace OpenMemory.Engine.Space

open Foundation OpenMemory.Graph

/-! ## Names -/

def maxOpenSpaces : Nat := 8

/-- `MAX_SPACE_NAME_LEN`, in bytes. -/
def maxSpaceNameLen : Nat := 64

def reservedNames : List String := ["default"]

/-- A lower-case letter or a digit of ASCII. -/
def alnum (byte : UInt8) : Bool := (97 ≤ byte && byte ≤ 122) || (48 ≤ byte && byte ≤ 57)

/-- One byte of the scan, after knowing whether the byte before was a dash. -/
def scanByte (prevDash : Bool) (byte : UInt8) : MemoryResult Bool :=
  if byte = 45 then
    if prevDash then
      .error (.invalidInput "space name must not contain consecutive dashes")
    else .ok true
  else if alnum byte then .ok false
  else .error (.invalidInput "space name may only contain lowercase letters, digits, and dashes")

def validateSpaceName (name : String) : MemoryResult Unit := do
  let bytes := utf8 name
  refuseIf (bytes = [] ∨ maxSpaceNameLen < bytes.length)
    (.invalidInput s!"space name must be 1..={maxSpaceNameLen} characters")
  refuseIf (¬ (bytes.head?.any alnum ∧ bytes.getLast?.any alnum))
    (.invalidInput "space name must start and end with a lowercase letter or digit")
  let _ ← bytes.foldlM scanByte false
  refuseIf (name ∈ reservedNames)
    (.invalidInput s!"space name '{name}' is reserved for the personal-global default")

/-! ## Roots -/

/-- What `space.toml` says. -/
structure SpaceManifest where
  spaceId : SpaceId
  name : String
  createdAt : Int64
  deriving DecidableEq

/-- What stands where the root of a space should be. -/
inductive RootEntry where
  | missing
  | unreadable (message : String)
  | symlink
  | file
  | directory

/-- What the file system and the databases answer when a space is opened. -/
structure SpaceRoot where
  entry : RootEntry
  manifest : MemoryResult SpaceManifest
  /-- The shared lock on `.space.lock`. -/
  lock : MemoryResult Unit
  /-- Opening the databases of the domain store. -/
  domains : MemoryResult Unit
  /-- Binding the identity of the space into each of them. -/
  bound : SpaceId → MemoryResult Unit

/-- Opening a root. A failure after the lock was taken releases the lock again. -/
def openRoot (name : String) (root : SpaceRoot) : MemoryResult SpaceManifest := do
  match root.entry with
  | .missing =>
    .error (.invalidInput s!"space '{name}' does not exist; create it first")
  | .unreadable message => .error (.io message)
  | .symlink | .file =>
    .error (.invalidInput s!"space root for '{name}' must be a real directory")
  | .directory => .ok ()
  let manifest ← root.manifest
  root.lock
  root.domains
  root.bound manifest.spaceId
  .ok manifest

/-! ## The manager and its callers -/

/-- A store, with the number of the opening that made it. -/
structure DomainStore where
  space : String
  opening : Nat
  deriving DecidableEq

structure SpaceHandle where
  manifest : SpaceManifest
  store : DomainStore
  deriving DecidableEq

/-- The map of the manager, the references that callers hold, the lifetime locks
that open handles hold, and how many spaces were opened so far. -/
structure SpaceManager where
  cached : Table String SpaceHandle
  handles : List SpaceHandle
  stores : List DomainStore
  locks : List String
  opened : Nat

namespace SpaceManager

def new : SpaceManager := ⟨.empty, [], [], [], 0⟩

/-- `Arc::strong_count` of a handle. -/
def strongCount (manager : SpaceManager) (handle : SpaceHandle) : Nat :=
  (manager.cached.entries.map Prod.snd).count handle + manager.handles.count handle

/-- Somebody else than the map refers to the handle. -/
def inUse (manager : SpaceManager) (handle : SpaceHandle) : Bool :=
  1 < manager.strongCount handle

/-- Drop the handles that only the map refers to; each releases its lock. -/
def evictIdle (manager : SpaceManager) : SpaceManager :=
  if maxOpenSpaces ≤ manager.cached.entries.length then
    { manager with
      cached := manager.cached.filter fun _ handle => manager.inUse handle
      locks := manager.locks.diff ((manager.cached.filter fun _ handle =>
        !manager.inUse handle).entries.map fun entry => entry.2.store.space) }
  else manager

/-- Open a space that is not in the map, if there is room for it. -/
def openIfRoom (manager : SpaceManager) (name : String) (root : SpaceRoot) :
    SpaceManager × MemoryResult SpaceHandle :=
  if maxOpenSpaces ≤ manager.cached.entries.length then
    (manager, .error (.invalidInput (s!"too many open spaces (bound {maxOpenSpaces}); " ++
      s!"close or finish in-flight requests before opening '{name}'")))
  else match openRoot name root with
    | .error error => (manager, .error error)
    | .ok manifest =>
      let handle : SpaceHandle := ⟨manifest, ⟨name, manager.opened⟩⟩
      ({ manager with
          cached := manager.cached.put name handle
          handles := handle :: manager.handles
          locks := name :: manager.locks
          opened := manager.opened + 1 }, .ok handle)

/-- `SpaceManager::open`: the caller receives a reference to the handle. -/
def openSpace (manager : SpaceManager) (name : String) (root : SpaceRoot) :
    SpaceManager × MemoryResult SpaceHandle :=
  match validateSpaceName name with
  | .error error => (manager, .error error)
  | .ok _ => match manager.cached.get? name with
    | some handle => ({ manager with handles := handle :: manager.handles }, .ok handle)
    | none => manager.evictIdle.openIfRoom name root

/-- A caller clones the store out of a handle. -/
def cloneStore (manager : SpaceManager) (handle : SpaceHandle) : SpaceManager :=
  { manager with stores := handle.store :: manager.stores }

/-- A caller drops a handle; the last reference to it releases its lock. -/
def dropHandle (manager : SpaceManager) (handle : SpaceHandle) : SpaceManager :=
  let dropped := { manager with handles := manager.handles.erase handle }
  if dropped.strongCount handle = 0 then
    { dropped with locks := dropped.locks.erase handle.store.space }
  else dropped

def dropStore (manager : SpaceManager) (store : DomainStore) : SpaceManager :=
  { manager with stores := manager.stores.erase store }

/-- `SpaceManager::store`: open the space, clone its store, and drop the handle. -/
def store (manager : SpaceManager) (name : String) (root : SpaceRoot) :
    SpaceManager × MemoryResult DomainStore :=
  match manager.openSpace name root with
  | (opened, .error error) => (opened, .error error)
  | (opened, .ok handle) => ((opened.cloneStore handle).dropHandle handle, .ok handle.store)

/-- What happens to a manager. -/
inductive Action where
  | openSpace (name : String) (root : SpaceRoot)
  | store (name : String) (root : SpaceRoot)
  | cloneHandle (handle : SpaceHandle)
  | cloneStore (handle : SpaceHandle)
  | cloneStoreAgain (store : DomainStore)
  | dropHandle (handle : SpaceHandle)
  | dropStore (store : DomainStore)

/-- One step. Callers clone and drop only what they hold. -/
def step (manager : SpaceManager) : Action → Option SpaceManager
  | .openSpace name root => some (manager.openSpace name root).1
  | .store name root => some (manager.store name root).1
  | .cloneHandle handle =>
    if handle ∈ manager.handles then some { manager with handles := handle :: manager.handles }
    else none
  | .cloneStore handle =>
    if handle ∈ manager.handles then some (manager.cloneStore handle) else none
  | .cloneStoreAgain store =>
    if store ∈ manager.stores then some { manager with stores := store :: manager.stores }
    else none
  | .dropHandle handle =>
    if handle ∈ manager.handles then some (manager.dropHandle handle) else none
  | .dropStore store =>
    if store ∈ manager.stores then some (manager.dropStore store) else none

end SpaceManager

end OpenMemory.Engine.Space
