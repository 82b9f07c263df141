import OpenMemory.Foundation.Table
import OpenMemory.Index.Flat

/-!
# The full-text stores

The one store is an inverted index of this repository, and the other is a table of
SQLite's. Both add what is inserted to what they hold. Fields weigh in by being repeated
in the text that is indexed: the first store keeps the text that is shown beside it, and
the second store shows the text that is indexed.

Which characters are alphanumeric is given by tables of the Unicode database, and which
rows match by SQLite.
-/

namespace OpenMemory.Index

open Foundation OpenMemory.Graph

/-- `char::is_alphanumeric`. -/
class CharClasses where
  isAlphanumeric : Char → Bool

/-! ## Fields -/

structure FieldWeights where
  title : Float32
  text : Float32
  summary : Float32
  concepts : Float32
  sourceFiles : Float32
  sourceKind : Float32
  entityType : Float32
  entityName : Float32

def defaultFieldWeights : FieldWeights where
  title := 5
  text := 1
  summary := 2
  concepts := 2
  sourceFiles := 2
  sourceKind := 0.5
  entityType := 0.5
  entityName := 4

def weightScale : Float32 := 2

def entryIsFielded (e : IndexEntry) : Bool :=
  e.title.isSome || e.summary.isSome || e.entityName.isSome || e.entityType.isSome ||
    e.sourceKind.isSome || !e.concepts.isEmpty || !e.sourceFiles.isEmpty

/-- `repeat`. -/
def repeatField (w : Float32) (out value : String) : String :=
  let trimmed := trim value
  if trimmed.isEmpty then out
  else
    let n := ((if 0 < w then w else 0) * weightScale).round.toUInt32
    Nat.repeat (fun out => (if out.isEmpty then out else out ++ " ") ++ trimmed) n.toNat out

def fieldedText (entry : IndexEntry) (weights : FieldWeights) : String :=
  let out := entry.title.toList.foldl (repeatField weights.title) ""
  let out := entry.summary.toList.foldl (repeatField weights.summary) out
  let out := entry.entityName.toList.foldl (repeatField weights.entityName) out
  let out := repeatField weights.text out entry.text
  let out := entry.concepts.foldl (repeatField weights.concepts) out
  let out := entry.sourceFiles.foldl (repeatField weights.sourceFiles) out
  let out := entry.sourceKind.toList.foldl (repeatField weights.sourceKind) out
  let out := entry.entityType.toList.foldl (repeatField weights.entityType) out
  if out.isEmpty then entry.text else out

def indexText (entry : IndexEntry) (weights : FieldWeights) : String :=
  if entryIsFielded entry then fieldedText entry weights else entry.text

/-! ## The inverted index -/

structure DocMeta where
  uri : String
  text : String
  chunkIndex : UInt32
  docLen : UInt32

structure Bm25Inner where
  index : Table String (List (UInt32 × Float32))
  docs : Table UInt32 DocMeta
  docCount : UInt32
  avgDl : Float
  nextId : UInt32

def tokenize [CharClasses] [CaseMapping] (text : String) : List String :=
  let pieces := (text.toList.splitOnP fun c => !CharClasses.isAlphanumeric c).filter fun piece =>
    decide (2 ≤ (String.ofList piece).utf8ByteSize)
  pieces.map fun piece => String.ofList (piece.map fun c =>
    if c.toNat < 128 then c.toLower
    else (CaseMapping.toLowercase (String.singleton c)).toList.head?.getD c)

namespace Bm25Inner

variable [CharClasses] [CaseMapping]

/-- K1 and B, the parameters of the ranking. -/
def k1 : Float := 1.2

def b : Float := 0.75

def new : Bm25Inner := ⟨.empty, .empty, 0, 0, 0⟩

def addDoc (inner : Bm25Inner) (uri displayText indexText : String) (chunkIndex : UInt32) :
    Bm25Inner :=
  let id := inner.nextId
  let tokens := tokenize indexText
  let docLen := UInt32.ofNat tokens.length
  let termFreqs : Table String UInt32 := tokens.foldl
    (fun freqs tok => freqs.put tok ((freqs.get? tok).getD 0 + 1)) .empty
  let total := inner.avgDl * inner.docCount.toFloat + docLen.toFloat
  let docCount := inner.docCount + 1
  { index := termFreqs.entries.foldl
      (fun index (term, count) =>
        index.put term ((index.get? term).getD [] ++ [(id, count.toFloat32)])) inner.index
    docs := inner.docs.put id ⟨uri, displayText, chunkIndex, docLen⟩
    docCount
    avgDl := total / docCount.toFloat
    nextId := id + 1 }

omit [CharClasses] [CaseMapping] in
def removeDoc (inner : Bm25Inner) (docId : UInt32) : Bm25Inner :=
  match inner.docs.get? docId with
  | none => inner
  | some doc =>
    let total := inner.avgDl * inner.docCount.toFloat - doc.docLen.toFloat
    let postings := inner.index.map fun _ postings =>
      postings.filter fun (id, _) => id ≠ docId
    { inner with
      docs := inner.docs.erase docId
      docCount := if 1 < inner.docCount then inner.docCount - 1 else 0
      avgDl := if 1 < inner.docCount then total / (inner.docCount - 1).toFloat else 0
      index := postings.filter fun _ postings => !postings.isEmpty }

def scoreTerm (inner : Bm25Inner) (scores : Table UInt32 Float) (term : String) :
    Table UInt32 Float :=
  match inner.index.get? term with
  | none => scores
  | some postings =>
    let n := inner.docCount.toFloat
    let df := Float.ofNat postings.length
    let idf := ((n - df + 0.5) / (df + 0.5) + 1).log
    postings.foldl
      (fun scores (docId, tf) => match inner.docs.get? docId with
        | none => scores
        | some doc =>
          let dl := doc.docLen.toFloat
          let num := tf.toFloat * (k1 + 1)
          let denom := tf.toFloat + k1 * (1 - b + b * dl / inner.avgDl)
          scores.put docId ((scores.get? docId).getD 0 + idf * num / denom)) scores

def search [LibraryOrders] (inner : Bm25Inner) (query : String) (topK : Nat) :
    List (UInt32 × Float) :=
  if inner.docCount.toFloat == 0 then []
  else
    let scores := (tokenize query).foldl inner.scoreTerm .empty
    ((LibraryOrders.hashOrder scores.entries).mergeSort fun a b => !(decide (a.2 < b.2))).take topK

/-! ### The store -/

def exportAll [LibraryOrders] (inner : Bm25Inner) : List ExportEntry :=
  let out := (LibraryOrders.hashOrder inner.docs.entries).map fun (_, doc) =>
    (⟨doc.uri, doc.text, doc.chunkIndex, []⟩ : ExportEntry)
  out.mergeSort fun a b => decide (a.uri < b.uri) || (a.uri == b.uri && a.chunkIndex ≤ b.chunkIndex)

def insert (inner : Bm25Inner) (entries : List IndexEntry) : Bm25Inner :=
  entries.foldl
    (fun inner e => inner.addDoc e.uri e.text (indexText e defaultFieldWeights) e.chunkIndex) inner

/-- A document that was found, with its score. -/
def found (inner : Bm25Inner) (id : UInt32) (score : Float) : Option SearchResult :=
  (inner.docs.get? id).map fun doc =>
    ⟨doc.uri, doc.text, doc.chunkIndex, ofFloat32 score.toFloat32⟩

/-- `search` of the store. -/
def searchResults [LibraryOrders] (inner : Bm25Inner) (query : String) (topK : Nat) :
    List SearchResult :=
  (inner.search query topK).filterMap fun (id, score) => inner.found id score

def deleteByUri [LibraryOrders] (inner : Bm25Inner) (uri : String) : Nat × Bm25Inner :=
  let ids := ((LibraryOrders.hashOrder inner.docs.entries).filter fun entry =>
    entry.2.uri == uri).map Prod.fst
  (ids.length, ids.foldl removeDoc inner)

end Bm25Inner

/-! ## The table of SQLite -/

structure Fts5Row where
  uri : String
  text : String
  chunkIndex : UInt32

structure Fts5Store where
  rows : List Fts5Row
  fieldWeights : FieldWeights

/-- The positions of the texts that match a query, by rank. -/
class Fts5 where
  ranked (query : String) (texts : List String) : Except String (List (Nat × Float))
  /-- No row is found twice. -/
  distinct {query : String} {texts : List String} {found : List (Nat × Float)} :
    ranked query texts = .ok found → (found.map Prod.fst).Nodup

def fts5Operators : List String := ["AND", "OR", "NOT", "NEAR"]

def fts5Escape [CharClasses] (query : String) : String :=
  let quote := Char.ofNat 0x22
  let terms := ((splitWhitespace query).filter fun w => decide (2 ≤ w.utf8ByteSize)).filterMap
    fun word =>
      let escaped := String.ofList (word.toList.flatMap fun c =>
        if c = quote then [quote, quote] else [c])
      let cleaned := String.ofList (word.toList.filter fun c =>
        CharClasses.isAlphanumeric c || c.toNat == 0x5F)
      let safeForPrefix := decide (4 ≤ cleaned.utf8ByteSize) &&
        !(fts5Operators.any fun op => cleaned.toList.map Char.toLower == op.toList.map Char.toLower)
      if safeForPrefix then some ("(\"" ++ escaped ++ "\" OR " ++ cleaned ++ "*)")
      else if !cleaned.isEmpty then some ("\"" ++ escaped ++ "\"")
      else none
  " OR ".intercalate terms

namespace Fts5Store

def new (fieldWeights : FieldWeights) : Fts5Store := ⟨[], fieldWeights⟩

def row (weights : FieldWeights) (e : IndexEntry) : Fts5Row :=
  ⟨e.uri, indexText e weights, e.chunkIndex⟩

/-- The rows of a batch are added in one transaction. -/
def insert (store : Fts5Store) (entries : List IndexEntry) : Fts5Store :=
  { store with rows := store.rows ++ entries.map (row store.fieldWeights) }

/-- Scores near zero are scaled so that the best of them is one. -/
def rescale (out : List (Fts5Row × Float32)) : List (Fts5Row × Float32) :=
  match out.map Prod.snd with
  | [] => out
  | first :: rest =>
    let best := rest.foldl
      (fun best score => if best < score || best.isNaN then score else best) first
    if 0 < best && best < 0.01 then out.map fun (row, score) => (row, score * (1 / best))
    else out

/-- A row that was found, with its score. -/
def found (row : Fts5Row) (score : Float32) : SearchResult :=
  ⟨row.uri, row.text, row.chunkIndex, ofFloat32 score⟩

def search [CharClasses] [Fts5] (store : Fts5Store) (query : String) (topK : Nat) :
    IndexResult (List SearchResult) :=
  let escaped := fts5Escape query
  if escaped.isEmpty then .ok []
  else match Fts5.ranked escaped (store.rows.map Fts5Row.text) with
    | .error message => .error (.sqlite message)
    | .ok ranked =>
      -- a limit that is negative as an `i64` is none
      let limited := if topK < 2 ^ 63 then ranked.take topK else ranked
      let out := limited.filterMap fun (position, score) =>
        store.rows[position]?.map fun row => (row, score.toFloat32)
      .ok ((rescale out).map fun (row, score) => found row score)

def deleteByUri (store : Fts5Store) (uri : String) : Nat × Fts5Store :=
  let kept := store.rows.filter fun row => row.uri ≠ uri
  (store.rows.length - kept.length, { store with rows := kept })

def exportAll (store : Fts5Store) : List ExportEntry :=
  store.rows.map fun row => ⟨row.uri, row.text, row.chunkIndex, []⟩

end Fts5Store

end OpenMemory.Index
