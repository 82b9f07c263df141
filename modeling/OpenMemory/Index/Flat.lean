import OpenMemory.Foundation.Reader
import OpenMemory.Index.Ranking

/-!
# The flat vector index

Entries are kept in a list, in the order they were inserted, and are saved as one file
that is replaced as a whole. Whether the list has changed since it was last saved is
kept along with it.

What a file holds is read as it was written. The lengths of its texts and of its
vectors are stored in 32 bits. Of the error for bytes that are no text only the beginning
is modelled.
-/

namespace OpenMemory.Index

open Foundation OpenMemory.Graph

structure StoredEntry where
  uri : String
  text : String
  chunkIndex : UInt32
  vector : List Float32Bits
  deriving DecidableEq

structure ExportEntry where
  uri : String
  text : String
  chunkIndex : UInt32
  vector : List Float32Bits

def ExportEntry.toIndexEntry (entry : ExportEntry) : IndexEntry where
  uri := entry.uri
  text := entry.text
  chunkIndex := entry.chunkIndex
  vector := entry.vector
  title := none
  summary := none
  concepts := []
  sourceFiles := []
  sourceKind := none
  entityType := none
  entityName := none

/-- The entries that a vector store takes from a batch. -/
def vectorEntries (entries : List IndexEntry) : List IndexEntry :=
  entries.filter fun entry => !entry.vector.isEmpty

structure FlatVectorIndex where
  entries : List StoredEntry
  dirty : Bool
  deriving DecidableEq

namespace FlatVectorIndex

def new : FlatVectorIndex := ⟨[], false⟩

def storedEntry (entry : IndexEntry) : StoredEntry :=
  ⟨entry.uri, entry.text, entry.chunkIndex, entry.vector⟩

/-- A vector of another length than the first one. -/
def mismatched (dim : Nat) (entries : List IndexEntry) : Option IndexEntry :=
  entries.find? fun entry => entry.vector.length ≠ dim

def insert (index : FlatVectorIndex) (entries : List IndexEntry) :
    IndexResult Unit × FlatVectorIndex :=
  match vectorEntries entries with
  | [] => (.ok (), index)
  | first :: rest =>
    let newDim := first.vector.length
    match index.entries.head?.filter fun existing => existing.vector.length ≠ newDim with
    | some existing => (.error (.dimensionMismatch existing.vector.length newDim), index)
    | none => match mismatched newDim rest with
      | some entry => (.error (.dimensionMismatch newDim entry.vector.length), index)
      | none => (.ok (), ⟨index.entries ++ (first :: rest).map storedEntry, true⟩)

def deleteByUri (index : FlatVectorIndex) (uri : String) : Nat × FlatVectorIndex :=
  let kept := index.entries.filter fun entry => entry.uri ≠ uri
  let removed := index.entries.length - kept.length
  (removed, ⟨kept, index.dirty || 0 < removed⟩)

def count (index : FlatVectorIndex) : Nat := index.entries.length

def exportAll (index : FlatVectorIndex) : List ExportEntry :=
  index.entries.map fun entry => ⟨entry.uri, entry.text, entry.chunkIndex, entry.vector⟩

/-- An entry that was found, with its score. -/
def found (entry : StoredEntry) (score : Float32) : SearchResult where
  uri := entry.uri
  text := entry.text
  chunkIndex := entry.chunkIndex
  score := ofFloat32 score

def search [LibraryOrders] (index : FlatVectorIndex) (queryVector : List Float32Bits)
    (topK : Nat) : List SearchResult :=
  let scored := index.entries.map fun entry => (cosineSimilarity queryVector entry.vector, entry)
  (bestRanked Prod.fst topK scored).map fun (score, entry) => found entry score

/-! ## The file -/

def magic : Bytes := [0x4F, 0x4D, 0x56, 0x31]

def writeString (value : String) : Bytes := leBytes 4 (utf8 value).length ++ utf8 value

def writeFloat (x : Float32Bits) : Bytes := leBytes 4 x.toBits.toNat

def writeEntry (entry : StoredEntry) : Bytes :=
  writeString entry.uri ++ (writeString entry.text ++
    (leBytes 4 entry.chunkIndex.toNat ++ entry.vector.flatMap writeFloat))

def dimension (entries : List StoredEntry) : Nat :=
  match entries with
  | [] => 0
  | first :: _ => first.vector.length

def fileBytes (entries : List StoredEntry) : Bytes :=
  magic ++ (leBytes 8 entries.length ++ (leBytes 4 (dimension entries) ++
    entries.flatMap writeEntry))

section Load

variable (path : String)

def readExact (count : Nat) (label : String) : Reader IndexError Bytes :=
  takeBytes count (.corrupt path s!"read {label}: failed to fill whole buffer")

def readNumber (width : Nat) (label : String) : Reader IndexError Nat := do
  let buf ← readExact path width label
  return ofLeBytes buf

def readString (label : String) : Reader IndexError String := do
  let len ← readNumber path 4 label
  let bytes ← readExact path len label
  match fromUtf8 bytes with
  | some value => return value
  | none => throw (.corrupt path s!"invalid UTF-8 in {label}")

def readFloat (label : String) : Reader IndexError Float32Bits := do
  let buf ← readNumber path 4 label
  return ⟨BitVec.ofNat 32 buf⟩

def readEntry (dim i : Nat) : Reader IndexError StoredEntry := do
  let uri ← readString path s!"uri[{i}]"
  let text ← readString path s!"text[{i}]"
  let chunkIndex ← readNumber path 4 s!"chunk_index[{i}]"
  let vector ← readEach (fun j => readFloat path s!"vector[{i}][{j}]") 0 dim
  return ⟨uri, text, UInt32.ofNat chunkIndex, vector⟩

/-- A byte string, as it is printed for debugging. -/
def debugBytes (bytes : Bytes) : String :=
  "[" ++ ", ".intercalate (bytes.map fun b => Nat.repr b.toNat) ++ "]"

def readEntries : Reader IndexError (List StoredEntry) := do
  let found ← readExact path 4 "magic"
  if found ≠ magic then
    let shown := debugBytes found
    throw (.corrupt path s!"bad magic: {shown}")
  let count ← readNumber path 8 "count"
  let dim ← readNumber path 4 "dim"
  -- older keyword-only runs have saved empty vectors
  if dim = 0 then return []
  else readEach (readEntry path dim) 0 count

def load (data : Bytes) : IndexResult FlatVectorIndex := do
  let (entries, _) ← (readEntries path).run data
  return ⟨entries, false⟩

/-- `open`, where the file may be missing. -/
def openFile (data : Option Bytes) : IndexResult FlatVectorIndex :=
  match data with
  | some data => load path data
  | none => .ok new

end Load

end FlatVectorIndex

end OpenMemory.Index
