import OpenMemory.Index.Adaptive
import OpenMemory.Index.FullText

/-!
# The hybrid search engine

An engine owns a vector store and a full-text store, writes to both, and fuses what the
two find. A search that finds an entry in both of them shows it once.

The machine is one engine that is empty at first, and the inserts and deletions that are
published to it. A vector store fails as `UsearchFailure` says, and a table of SQLite may
refuse a batch or a deletion as a whole.
-/

namespace OpenMemory.Index

open Foundation OpenMemory.Graph

/-! ## The two stores -/

inductive VectorStore where
  | flat (index : FlatVectorIndex)
  | hnsw (index : HnswIndex)
  | adaptive (index : AdaptiveVectorIndex)

namespace VectorStore

def insert (store : VectorStore) (entries : List IndexEntry) (failure : Option UsearchFailure) :
    IndexResult Unit × VectorStore :=
  match store with
  | .flat index =>
    let (result, index) := index.insert entries
    (result, .flat index)
  | .hnsw index =>
    let (result, index) := index.insert entries failure
    (result, .hnsw index)
  | .adaptive index =>
    let (result, index) := index.insert entries failure
    (result, .adaptive index)

def search [LibraryOrders] [HnswIndex.Usearch] (store : VectorStore)
    (queryVector : List Float32Bits) (topK : Nat) : IndexResult (List SearchResult) :=
  match store with
  | .flat index => .ok (index.search queryVector topK)
  | .hnsw index => index.search queryVector topK
  | .adaptive index => index.search queryVector topK

def deleteByUri (store : VectorStore) (uri : String) : Nat × VectorStore :=
  match store with
  | .flat index =>
    let (removed, index) := index.deleteByUri uri
    (removed, .flat index)
  | .hnsw index =>
    let (removed, index) := index.deleteByUri uri
    (removed, .hnsw index)
  | .adaptive index =>
    let (removed, index) := index.deleteByUri uri
    (removed, .adaptive index)

def exportAll (store : VectorStore) : List ExportEntry :=
  match store with
  | .flat index => index.exportAll
  | .hnsw index => index.exportAll
  | .adaptive index => index.exportAll

end VectorStore

inductive FullTextStore where
  | bm25 (inner : Bm25Inner)
  | fts5 (store : Fts5Store)

namespace FullTextStore

variable [CharClasses] [CaseMapping]

def insert (store : FullTextStore) (entries : List IndexEntry) (failure : Option IndexError) :
    IndexResult Unit × FullTextStore :=
  match store with
  | .bm25 inner => (.ok (), .bm25 (inner.insert entries))
  | .fts5 table => match entries, failure with
    | [], _ => (.ok (), store)
    | _ :: _, some error => (.error error, store)
    | _ :: _, none => (.ok (), .fts5 (table.insert entries))

def search [LibraryOrders] [Fts5] (store : FullTextStore) (query : String) (topK : Nat) :
    IndexResult (List SearchResult) :=
  match store with
  | .bm25 inner => .ok (inner.searchResults query topK)
  | .fts5 table => table.search query topK

omit [CharClasses] [CaseMapping] in
def deleteByUri [LibraryOrders] (store : FullTextStore) (uri : String)
    (failure : Option IndexError) : IndexResult Nat × FullTextStore :=
  match store with
  | .bm25 inner =>
    let (removed, inner) := inner.deleteByUri uri
    (.ok removed, .bm25 inner)
  | .fts5 table => match failure with
    | some error => (.error error, store)
    | none =>
      let (removed, table) := table.deleteByUri uri
      (.ok removed, .fts5 table)

omit [CharClasses] [CaseMapping] in
def exportAll [LibraryOrders] (store : FullTextStore) : List ExportEntry :=
  match store with
  | .bm25 inner => inner.exportAll
  | .fts5 table => table.exportAll

/-- The text that a store shows for an entry. -/
def shownText (store : FullTextStore) (entry : IndexEntry) : String :=
  match store with
  | .bm25 _ => entry.text
  | .fts5 table => indexText entry table.fieldWeights

end FullTextStore

/-! ## The engine -/

/-- What identifies an entry. -/
abbrev EntryKey := String × UInt32

def SearchResult.key (result : SearchResult) : EntryKey := (result.uri, result.chunkIndex)

structure HybridSearchEngine where
  vectorStore : VectorStore
  fulltextStore : FullTextStore
  alpha : Float32
  rrfK : Float32

namespace HybridSearchEngine

/-- The results of one list add their shares to the scores. The first result of a key is
the one that is shown. -/
def addShares (weight rrfK : Float32) (scores : Table EntryKey (SearchResult × Float32))
    (results : List SearchResult) : Table EntryKey (SearchResult × Float32) :=
  results.zipIdx.foldl
    (fun scores (r, rank) =>
      let s := weight / (rrfK + Float32.ofNat rank + 1)
      match scores.get? r.key with
      | some (base, score) => scores.put r.key (base, score + s)
      | none => scores.put r.key (r, s)) scores

def rrfFuse [LibraryOrders] (vector keyword : List SearchResult) (alpha rrfK : Float32)
    (topK : Nat) : List SearchResult :=
  let scores := addShares (1 - alpha) rrfK (addShares alpha rrfK .empty vector) keyword
  let norm := rrfK + 1
  let fused := (LibraryOrders.hashOrder scores.entries).map fun (_, base, score) =>
    (base, score * norm)
  (bestRanked Prod.snd topK fused).map fun (base, score) => { base with score := ofFloat32 score }

section Methods

variable [CharClasses] [CaseMapping]

def insert (engine : HybridSearchEngine) (entries : List IndexEntry)
    (vectorFailure : Option UsearchFailure) (keywordFailure : Option IndexError) :
    IndexResult Unit × HybridSearchEngine :=
  match vectorEntries entries with
  | [] =>
    let (result, fulltextStore) := engine.fulltextStore.insert entries keywordFailure
    (result, { engine with fulltextStore })
  | first :: rest => match engine.vectorStore.insert (first :: rest) vectorFailure with
    | (.error error, vectorStore) => (.error error, { engine with vectorStore })
    | (.ok _, vectorStore) =>
      let (result, fulltextStore) := engine.fulltextStore.insert entries keywordFailure
      (result, { engine with vectorStore, fulltextStore })

def search [LibraryOrders] [HnswIndex.Usearch] [Fts5] (engine : HybridSearchEngine)
    (queryVector : List Float32Bits) (queryText : String) (topK : Nat) (mode : SearchMode) :
    IndexResult (List SearchResult) :=
  match mode with
  | .vectorOnly =>
    if queryVector.isEmpty then .ok [] else engine.vectorStore.search queryVector topK
  | .keywordOnly => engine.fulltextStore.search queryText topK
  | .hybrid =>
    if queryVector.isEmpty then engine.fulltextStore.search queryText topK
    else do
      let fetch := max (min (topK * 3) (2 ^ 64 - 1)) topK
      let v ← engine.vectorStore.search queryVector fetch
      let k ← engine.fulltextStore.search queryText fetch
      return rrfFuse v k engine.alpha engine.rrfK topK

omit [CharClasses] [CaseMapping] in
def deleteByUri [LibraryOrders] (engine : HybridSearchEngine) (uri : String)
    (keywordFailure : Option IndexError) : IndexResult Nat × HybridSearchEngine :=
  let (vectorCount, vectorStore) := engine.vectorStore.deleteByUri uri
  match engine.fulltextStore.deleteByUri uri keywordFailure with
  | (.error error, fulltextStore) => (.error error, { engine with vectorStore, fulltextStore })
  | (.ok keywordCount, fulltextStore) =>
    (.ok (max vectorCount keywordCount), { engine with vectorStore, fulltextStore })

end Methods

end HybridSearchEngine

/-! ## What is published -/

inductive Publication where
  | insert (entries : List IndexEntry) (vectorFailure : Option UsearchFailure)
      (keywordFailure : Option IndexError)
  | deleteByUri (uri : String) (keywordFailure : Option IndexError)

/-- What a publication makes of an engine, and whether it succeeds. -/
def Publication.publish [CharClasses] [CaseMapping] [LibraryOrders] (engine : HybridSearchEngine) :
    Publication → IndexResult Unit × HybridSearchEngine
  | .insert entries vectorFailure keywordFailure =>
    engine.insert entries vectorFailure keywordFailure
  | .deleteByUri uri keywordFailure =>
    let (removed, engine) := engine.deleteByUri uri keywordFailure
    (removed.map fun _ => (), engine)

end OpenMemory.Index
