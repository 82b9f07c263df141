import OpenMemory.Foundation.Table
import OpenMemory.Index.Flat

/-!
# The index of nearest neighbours

Vectors are kept in a graph under labels, and what else belongs to an entry is kept
under its label beside the graph. The two are saved as two files, one after the other.

The graph is taken to be an exact map from labels to vectors that is saved and loaded
faithfully. It may fail at any time: `UsearchFailure` says where. A file that was torn
is there but cannot be read.
-/

namespace OpenMemory.Index

open Foundation OpenMemory.Graph

/-- The graph, as the map that it stands for. -/
structure Graph where
  dimensions : Nat
  vectors : Table Nat (List Float32Bits)

structure EntryMeta where
  uri : String
  text : String
  chunkIndex : UInt32

/-- Where the graph fails in an insert: when it is created or grows, or at the entry of a
position. -/
inductive UsearchFailure where
  | create (message : String)
  | reserve (message : String)
  | add (position : Nat) (message : String)

/-- The files of a directory. The files of the graph and of its labels may be torn. -/
structure IndexDir where
  vectorsBin : Option Bytes
  graph : Option (Option Graph)
  metas : Option (Option (Table Nat EntryMeta))

/-- How a save fails: before it writes, after the graph was written, or in the middle of
the second file. -/
inductive SaveFailure where
  | nothing (error : IndexError)
  | graphOnly (error : IndexError)
  | torn (error : IndexError)

structure HnswIndex where
  graph : Graph
  nextLabel : Nat
  metas : Table Nat EntryMeta
  byUri : Table String (List Nat)
  dimensions : Nat
  dirty : Bool

namespace HnswIndex

def emptyGraph (dim : Nat) : Graph := ⟨dim, .empty⟩

def withDimensions (dim : Nat) : HnswIndex := ⟨emptyGraph dim, 0, .empty, .empty, dim, false⟩

def new : HnswIndex := withDimensions 0

/-- `Index::new`, and `reserve_capacity_and_threads` on what it has made. -/
def createGraph (dim : Nat) (failure : Option UsearchFailure) : IndexResult Graph :=
  match failure with
  | some (.create message) => .error (.invalidInput message)
  | _ => .ok (emptyGraph dim)

def ensureDimensions (index : HnswIndex) (dim : Nat) (failure : Option UsearchFailure) :
    IndexResult Unit × HnswIndex :=
  if index.dimensions = 0 then
    match createGraph dim failure with
    | .error error => (.error error, index)
    | .ok graph => (.ok (), { index with graph, dimensions := dim })
  else if index.dimensions = dim then (.ok (), index)
  else (.error (.dimensionMismatch index.dimensions dim), index)

/-- A label is added to the list of its URI. -/
def pushLabel (byUri : Table String (List Nat)) (uri : String) (label : Nat) :
    Table String (List Nat) :=
  byUri.put uri ((byUri.get? uri).getD [] ++ [label])

/-- `usearch::Index::add` refuses a label that is taken. -/
def addVector (graph : Graph) (label : Nat) (vector : List Float32Bits) : Option Graph :=
  if (graph.vectors.get? label).isSome then none
  else some { graph with vectors := graph.vectors.put label vector }

/-- The failure of the entry at a position. -/
def failsAt (failure : Option UsearchFailure) (position : Nat) : Option String :=
  match failure with
  | some (.add failing message) => if failing = position then some message else none
  | _ => none

/-- The loop of `insert`, which ends by setting the dirty flag. -/
def addEntries (failure : Option UsearchFailure) :
    Nat → HnswIndex → List IndexEntry → IndexResult Unit × HnswIndex
  | _, index, [] => (.ok (), { index with dirty := true })
  | position, index, entry :: rest =>
    let label := index.nextLabel
    let advanced := { index with nextLabel := label + 1 }
    match failsAt failure position with
    | some message => (.error (.invalidInput s!"usearch add: {message}"), advanced)
    | none => match addVector index.graph label entry.vector with
      | none => (.error (.invalidInput "usearch add: duplicate key"), advanced)
      | some graph => addEntries failure (position + 1)
          { advanced with
            graph
            byUri := pushLabel index.byUri entry.uri label
            metas := index.metas.put label ⟨entry.uri, entry.text, entry.chunkIndex⟩ } rest

def insert (index : HnswIndex) (entries : List IndexEntry) (failure : Option UsearchFailure) :
    IndexResult Unit × HnswIndex :=
  match vectorEntries entries with
  | [] => (.ok (), index)
  | first :: rest =>
    let dim := first.vector.length
    match index.ensureDimensions dim failure with
    | (.error error, index) => (.error error, index)
    | (.ok _, index) => match FlatVectorIndex.mismatched dim rest with
      | some entry => (.error (.dimensionMismatch dim entry.vector.length), index)
      | none => match failure with
        | some (.reserve message) =>
          (.error (.invalidInput s!"usearch reserve: {message}"), index)
        | _ => addEntries failure 0 index (first :: rest)

def deleteByUri (index : HnswIndex) (uri : String) : Nat × HnswIndex :=
  match index.byUri.get? uri with
  | none => (0, index)
  | some labels =>
    (labels.length,
      { index with
        byUri := index.byUri.erase uri
        graph := { index.graph with
          vectors := index.graph.vectors.filter fun label _ => label ∉ labels }
        metas := index.metas.filter fun label _ => label ∉ labels
        dirty := index.dirty || 0 < labels.length })

def count (index : HnswIndex) : Nat := index.metas.entries.length

def exportAll (index : HnswIndex) : List ExportEntry :=
  index.metas.entries.map fun (label, entry) =>
    ⟨entry.uri, entry.text, entry.chunkIndex,
      (index.graph.vectors.get? label).getD (List.replicate index.dimensions ⟨0⟩)⟩

/-- What `usearch::Index::search` finds in a graph. -/
class Usearch where
  search (graph : Graph) (queryVector : List Float32Bits) (topK : Nat) :
    Except String (List (Nat × Float32))
  /-- No label is found twice. -/
  distinct {graph : Graph} {queryVector : List Float32Bits} {topK : Nat}
    {found : List (Nat × Float32)} :
    search graph queryVector topK = .ok found → (found.map Prod.fst).Nodup

/-- Labels that are found but not known are skipped. -/
def found (index : HnswIndex) (label : Nat) (distance : Float32) : Option SearchResult :=
  (index.metas.get? label).map fun entry =>
    ⟨entry.uri, entry.text, entry.chunkIndex, ofFloat32 (1 - distance)⟩

def search [Usearch] (index : HnswIndex) (queryVector : List Float32Bits) (topK : Nat) :
    IndexResult (List SearchResult) :=
  if queryVector.isEmpty ∨ index.metas.entries.isEmpty ∨ index.dimensions = 0 then .ok []
  else match Usearch.search index.graph queryVector topK with
    | .error message => .error (.invalidInput s!"usearch search: {message}")
    | .ok matched => .ok (matched.filterMap fun (label, distance) => index.found label distance)

def migrateFromFlat (flat : FlatVectorIndex) (failure : Option UsearchFailure) :
    IndexResult HnswIndex :=
  match flat.exportAll with
  | [] => .ok new
  | first :: rest => match createGraph first.vector.length failure with
    | .error error => .error error
    | .ok _ =>
      match (withDimensions first.vector.length).insert
          ((first :: rest).map ExportEntry.toIndexEntry) failure with
      | (.error error, _) => .error error
      | (.ok _, hnsw) => .ok hnsw

/-! ## Files -/

def saveTo (index : HnswIndex) (dir : IndexDir) (failure : Option SaveFailure) :
    IndexResult Unit × HnswIndex × IndexDir :=
  match failure with
  | some (.nothing error) => (.error error, index, dir)
  | some (.graphOnly error) => (.error error, index, { dir with graph := some (some index.graph) })
  | some (.torn error) =>
    (.error error, index, { dir with graph := some (some index.graph), metas := some none })
  | none =>
    (.ok (), { index with dirty := false },
      { dir with graph := some (some index.graph), metas := some (some index.metas) })

/-- Whether either file exists. -/
def hasPersistedFiles (dir : IndexDir) : Bool := dir.graph.isSome || dir.metas.isSome

/-- The labels of every URI. -/
def labelsByUri (metas : Table Nat EntryMeta) : Table String (List Nat) :=
  metas.entries.foldl (fun byUri entry => pushLabel byUri entry.2.uri entry.1) .empty

/-- The index of a graph and its labels. -/
def ofFiles (graph : Graph) (metas : Table Nat EntryMeta) : HnswIndex where
  graph := graph
  nextLabel := (metas.entries.map fun entry => entry.1 + 1).foldr max 0
  metas := metas
  byUri := labelsByUri metas
  dimensions := graph.dimensions
  dirty := false

/-- `load_from`, where both files exist. -/
def loadFrom (path : String) (graph : Option Graph) (metas : Option (Table Nat EntryMeta)) :
    IndexResult HnswIndex :=
  match metas, graph with
  | none, _ => .error (.corrupt path "hnsw meta")
  | some _, none => .error (.corrupt path "usearch load")
  | some metas, some graph => .ok (ofFiles graph metas)

def loadOrCreate (path : String) (dir : IndexDir) (failure : Option UsearchFailure)
    (saveFailure : Option SaveFailure) : IndexResult HnswIndex × IndexDir :=
  match dir.graph, dir.metas with
  | some _, none | none, some _ =>
    (.error (.corrupt path "incomplete HNSW persistence pair"), dir)
  | some graph, some metas => (loadFrom path graph metas, dir)
  | none, none => match dir.vectorsBin with
    | none => (.ok new, dir)
    | some data => match FlatVectorIndex.load path data with
      | .error error => (.error error, dir)
      | .ok flat => match migrateFromFlat flat failure with
        | .error error => (.error error, dir)
        | .ok hnsw => match hnsw.saveTo dir saveFailure with
          | (.error error, _, dir) => (.error error, dir)
          | (.ok _, hnsw, dir) => (.ok hnsw, dir)

end HnswIndex

end OpenMemory.Index
