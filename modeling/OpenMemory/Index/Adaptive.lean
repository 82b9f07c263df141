import OpenMemory.Foundation.Runs
import OpenMemory.Index.Hnsw

/-!
# The adaptive vector index

The index starts flat and crosses over once to the index of nearest neighbours, in
memory when a batch makes it large enough, or when a large flat file is opened. Which of
the two is opened is decided by the files that are there.

The machine is one index in one directory. The graph may fail at any insert or
crossing, and a save may fail at any point. The lock is never poisoned.
-/

namespace OpenMemory.Index

open Foundation OpenMemory.Graph

def defaultHnswMigrationThreshold : Nat := 4096

inductive Backend where
  | flat (index : FlatVectorIndex)
  | hnsw (index : HnswIndex)

structure AdaptiveVectorIndex where
  backend : Backend
  migrationThreshold : Nat

namespace AdaptiveVectorIndex

/-- `with_threshold`. -/
def withThreshold (migrationThreshold : Nat) : AdaptiveVectorIndex :=
  ⟨.flat .new, max migrationThreshold 1⟩

def loadOrCreate (path : String) (dir : IndexDir) (failure : Option UsearchFailure) :
    IndexResult AdaptiveVectorIndex × IndexDir :=
  let opened (backend : IndexResult Backend) : IndexResult AdaptiveVectorIndex :=
    backend.map fun backend => ⟨backend, defaultHnswMigrationThreshold⟩
  if HnswIndex.hasPersistedFiles dir then
    let (hnsw, dir) := HnswIndex.loadOrCreate path dir failure none
    (opened (hnsw.map .hnsw), dir)
  else match FlatVectorIndex.openFile path dir.vectorsBin with
    | .error error => (.error error, dir)
    | .ok flat =>
      if defaultHnswMigrationThreshold ≤ flat.count then
        (opened ((HnswIndex.migrateFromFlat flat failure).map .hnsw), dir)
      else (opened (.ok (.flat flat)), dir)

/-- The end of an insert into a flat index, which may cross over. A failed crossing is
only warned about. -/
def crossOver (index : AdaptiveVectorIndex) (flat : FlatVectorIndex)
    (failure : Option UsearchFailure) : AdaptiveVectorIndex :=
  if index.migrationThreshold ≤ flat.count then
    match HnswIndex.migrateFromFlat flat failure with
    | .ok hnsw => { index with backend := .hnsw hnsw }
    | .error _ => { index with backend := .flat flat }
  else { index with backend := .flat flat }

def insert (index : AdaptiveVectorIndex) (entries : List IndexEntry)
    (failure : Option UsearchFailure) : IndexResult Unit × AdaptiveVectorIndex :=
  match index.backend with
  | .hnsw hnsw =>
    let (result, hnsw) := hnsw.insert entries failure
    (result, { index with backend := .hnsw hnsw })
  | .flat flat => match flat.insert entries with
    | (.error error, flat) => (.error error, { index with backend := .flat flat })
    | (.ok _, flat) => (.ok (), index.crossOver flat failure)

def deleteByUri (index : AdaptiveVectorIndex) (uri : String) : Nat × AdaptiveVectorIndex :=
  match index.backend with
  | .flat flat =>
    let (removed, flat) := flat.deleteByUri uri
    (removed, { index with backend := .flat flat })
  | .hnsw hnsw =>
    let (removed, hnsw) := hnsw.deleteByUri uri
    (removed, { index with backend := .hnsw hnsw })

def search [LibraryOrders] [HnswIndex.Usearch] (index : AdaptiveVectorIndex)
    (queryVector : List Float32Bits) (topK : Nat) : IndexResult (List SearchResult) :=
  match index.backend with
  | .flat flat => .ok (flat.search queryVector topK)
  | .hnsw hnsw => hnsw.search queryVector topK

def isDirty (index : AdaptiveVectorIndex) : Bool :=
  match index.backend with
  | .flat flat => flat.dirty
  | .hnsw hnsw => hnsw.dirty

def exportAll (index : AdaptiveVectorIndex) : List ExportEntry :=
  match index.backend with
  | .flat flat => flat.exportAll
  | .hnsw hnsw => hnsw.exportAll

/-- `save`. The flat file is replaced as a whole or not at all. -/
def save (index : AdaptiveVectorIndex) (dir : IndexDir) (failure : Option SaveFailure) :
    IndexResult Unit × AdaptiveVectorIndex × IndexDir :=
  match index.backend with
  | .hnsw hnsw =>
    let (result, hnsw, dir) := hnsw.saveTo dir failure
    (result, { index with backend := .hnsw hnsw }, dir)
  | .flat flat => match failure with
    | some (.nothing error) | some (.graphOnly error) | some (.torn error) =>
      (.error error, index, dir)
    | none =>
      (.ok (), { index with backend := .flat { flat with dirty := false } },
        { dir with vectorsBin := some (FlatVectorIndex.fileBytes flat.entries) })

end AdaptiveVectorIndex

/-! ## One index in one directory -/

structure IndexState where
  dir : IndexDir
  index : Option AdaptiveVectorIndex

inductive IndexAction where
  /-- `load_or_create`, after the index was dropped if there is one. -/
  | reopen (failure : Option UsearchFailure)
  | insert (entries : List IndexEntry) (failure : Option UsearchFailure)
  | deleteByUri (uri : String)
  | flush (failure : Option SaveFailure)

namespace IndexState

/-- A directory that holds at most a flat file. -/
def new (vectorsBin : Option Bytes) : IndexState := ⟨⟨vectorsBin, none, none⟩, none⟩

def step (path : String) (s : IndexState) (action : IndexAction) : Option IndexState :=
  match action, s.index with
  | .reopen failure, _ =>
    let (opened, dir) := AdaptiveVectorIndex.loadOrCreate path s.dir failure
    some ⟨dir, opened.toOption⟩
  | _, none => none
  | .insert entries failure, some index => some { s with
      index := some (index.insert entries failure).2 }
  | .deleteByUri uri, some index => some { s with index := some (index.deleteByUri uri).2 }
  | .flush failure, some index =>
    if index.isDirty then
      let (_, index, dir) := index.save s.dir failure
      some ⟨dir, some index⟩
    else some s

end IndexState

end OpenMemory.Index
