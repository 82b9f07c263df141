import OpenMemory.Index.FullText

/-!
# The inverted index over any numbers

The statistics of the inverted index are numbers of the machine: an average of sixty-four bits,
and frequencies of thirty-two. The index is stated here for any numbers. With those of the
machine it is the inverted index of the search engine.

An index may be written to a file as a record, and be opened again. Hash maps yield their
entries in any order, so the order of the entries may have changed.
-/

namespace OpenMemory.Index

open Foundation OpenMemory.Graph

/-- Numbers that documents are scored with, and numbers that frequencies are kept as. -/
class Bm25Numbers (S : Type) (T : outParam Type) extends Add S, Sub S, Mul S, Div S, Zero S, One S
    where
  /-- `f64::from`. -/
  ofCount : UInt32 → S
  /-- `as f64`. -/
  ofLength : Nat → S
  /-- `as f32`. -/
  frequency : UInt32 → T
  ofFrequency : T → S
  ln : S → S
  below : S → S → Bool
  isZero : S → Bool
  half : S
  k1 : S
  b : S

/-- `Bm25Inner`. -/
structure Bm25 (S : Type) {T : Type} [Bm25Numbers S T] where
  index : Table String (List (UInt32 × T))
  docs : Table UInt32 DocMeta
  docCount : UInt32
  avgDl : S
  nextId : UInt32

structure PersistedBm25 (S : Type) {T : Type} [Bm25Numbers S T] where
  docCount : UInt32
  avgDl : S
  nextId : UInt32
  docs : List (UInt32 × DocMeta)
  index : List (String × List (UInt32 × T))

namespace Bm25

variable {S T : Type} [Bm25Numbers S T]

def new : Bm25 S := ⟨.empty, .empty, 0, 0, 0⟩

/-- How often each token occurs. -/
def termFreqs (tokens : List String) : Table String UInt32 :=
  tokens.foldl (fun freqs tok => freqs.put tok ((freqs.get? tok).getD 0 + 1)) .empty

/-- A posting of a document is added for each of its terms. -/
def addPostings (id : UInt32) (freqs : List (String × UInt32))
    (index : Table String (List (UInt32 × T))) : Table String (List (UInt32 × T)) :=
  freqs.foldl (fun index (term, count) =>
    index.put term ((index.get? term).getD [] ++ [(id, Bm25Numbers.frequency S count)])) index

/-- The postings of a document are removed, and with them the terms that have no other. -/
def dropPostings (id : UInt32) (index : Table String (List (UInt32 × T))) :
    Table String (List (UInt32 × T)) :=
  (index.map fun _ postings => postings.filter fun posting => posting.1 ≠ id).filter
    fun _ postings => !postings.isEmpty

section Documents

variable [CharClasses] [CaseMapping]

def addDoc (inner : Bm25 S) (uri displayText indexText : String) (chunkIndex : UInt32) : Bm25 S :=
  let id := inner.nextId
  let tokens := tokenize indexText
  let docLen := UInt32.ofNat tokens.length
  let total := inner.avgDl * Bm25Numbers.ofCount inner.docCount + Bm25Numbers.ofCount docLen
  let docCount := inner.docCount + 1
  { index := addPostings (S := S) id (termFreqs tokens).entries inner.index
    docs := inner.docs.put id ⟨uri, displayText, chunkIndex, docLen⟩
    docCount
    avgDl := total / Bm25Numbers.ofCount docCount
    nextId := id + 1 }

/-- `insert` of the store. -/
def insert (inner : Bm25 S) (entries : List IndexEntry) : Bm25 S :=
  entries.foldl
    (fun inner e => inner.addDoc e.uri e.text (indexText e defaultFieldWeights) e.chunkIndex) inner

end Documents

def removeDoc (inner : Bm25 S) (docId : UInt32) : Bm25 S :=
  match inner.docs.get? docId with
  | none => inner
  | some doc =>
    let total := inner.avgDl * Bm25Numbers.ofCount inner.docCount - Bm25Numbers.ofCount doc.docLen
    { inner with
      docs := inner.docs.erase docId
      docCount := if 1 < inner.docCount then inner.docCount - 1 else 0
      avgDl := if 1 < inner.docCount then total / Bm25Numbers.ofCount (inner.docCount - 1) else 0
      index := dropPostings docId inner.index }

def deleteByUri [LibraryOrders] (inner : Bm25 S) (uri : String) : Nat × Bm25 S :=
  let ids := ((LibraryOrders.hashOrder inner.docs.entries).filter fun entry =>
    entry.2.uri == uri).map Prod.fst
  (ids.length, ids.foldl removeDoc inner)

/-! ## Searches -/

/-- The inverse document frequency of a term. -/
def idf (inner : Bm25 S) (postings : List (UInt32 × T)) : S :=
  let n := Bm25Numbers.ofCount inner.docCount
  let df := Bm25Numbers.ofLength postings.length
  Bm25Numbers.ln ((n - df + Bm25Numbers.half) / (df + Bm25Numbers.half) + 1)

/-- What the share of a term in the score of a document is divided by. -/
def denom (inner : Bm25 S) (doc : DocMeta) (tf : T) : S :=
  Bm25Numbers.ofFrequency tf + Bm25Numbers.k1 *
    (1 - Bm25Numbers.b + Bm25Numbers.b * Bm25Numbers.ofCount doc.docLen / inner.avgDl)

/-- A posting adds its share to the score of its document. -/
def scorePosting (inner : Bm25 S) (idf : S) (scores : Table UInt32 S) (posting : UInt32 × T) :
    Table UInt32 S :=
  match inner.docs.get? posting.1 with
  | none => scores
  | some doc =>
    let num := Bm25Numbers.ofFrequency posting.2 * (Bm25Numbers.k1 + 1)
    scores.put posting.1 ((scores.get? posting.1).getD 0 + idf * num / inner.denom doc posting.2)

def scoreTerm (inner : Bm25 S) (scores : Table UInt32 S) (term : String) : Table UInt32 S :=
  match inner.index.get? term with
  | none => scores
  | some postings => postings.foldl (inner.scorePosting (inner.idf postings)) scores

/-- The scores of all documents that a query finds. -/
def scores [CharClasses] [CaseMapping] (inner : Bm25 S) (query : String) : Table UInt32 S :=
  (tokenize query).foldl inner.scoreTerm .empty

def search [CharClasses] [CaseMapping] [LibraryOrders] (inner : Bm25 S) (query : String)
    (topK : Nat) : List (UInt32 × S) :=
  if Bm25Numbers.isZero (Bm25Numbers.ofCount inner.docCount : S) then []
  else
    ((LibraryOrders.hashOrder (inner.scores query).entries).mergeSort
      fun a b => !(Bm25Numbers.below a.2 b.2)).take topK

/-! ## The file -/

def serialize [LibraryOrders] (inner : Bm25 S) : PersistedBm25 S where
  docCount := inner.docCount
  avgDl := inner.avgDl
  nextId := inner.nextId
  docs := LibraryOrders.hashOrder inner.docs.entries
  index := LibraryOrders.hashOrder inner.index.entries

/-- A hash map of the rows of a file. -/
def collect {κ ρ : Type} [DecidableEq κ] (rows : List (κ × ρ)) : Table κ ρ :=
  rows.foldl (fun table row => table.put row.1 row.2) .empty

def deserialize (p : PersistedBm25 S) : Bm25 S where
  index := collect p.index
  docs := collect p.docs
  docCount := p.docCount
  avgDl := p.avgDl
  nextId := p.nextId

/-- `flush`, and `open` of the file that it wrote. -/
def reopen [LibraryOrders] (inner : Bm25 S) : Bm25 S := deserialize inner.serialize

end Bm25

/-! ## The numbers of the machine -/

namespace Bm25Inner

instance machine : Bm25Numbers Float Float32 where
  zero := 0
  one := 1
  ofCount := UInt32.toFloat
  ofLength := Float.ofNat
  frequency := UInt32.toFloat32
  ofFrequency := Float32.toFloat
  ln := Float.log
  below a b := decide (a < b)
  isZero a := a == 0
  half := 0.5
  k1 := k1
  b := b

/-- The index of the search engine. -/
def ofBm25 (inner : Bm25 Float) : Bm25Inner :=
  ⟨inner.index, inner.docs, inner.docCount, inner.avgDl, inner.nextId⟩

variable [CharClasses] [CaseMapping]

theorem ofBm25_addDoc (inner : Bm25 Float) (uri displayText text : String) (chunkIndex : UInt32) :
    ofBm25 (inner.addDoc uri displayText text chunkIndex) =
      (ofBm25 inner).addDoc uri displayText text chunkIndex :=
  rfl

theorem ofBm25_insert (inner : Bm25 Float) (entries : List IndexEntry) :
    ofBm25 (inner.insert entries) = (ofBm25 inner).insert entries := by
  unfold Bm25.insert insert
  induction entries generalizing inner with
  | nil => rfl
  | cons first rest ih => exact ih _

section

omit [CharClasses] [CaseMapping]

theorem ofBm25_removeDoc (inner : Bm25 Float) (docId : UInt32) :
    ofBm25 (inner.removeDoc docId) = (ofBm25 inner).removeDoc docId := by
  have docs : (ofBm25 inner).docs = inner.docs := rfl
  unfold Bm25.removeDoc removeDoc
  rw [docs]
  cases inner.docs.get? docId with
  | none => rfl
  | some doc => rfl

theorem ofBm25_deleteByUri [LibraryOrders] (inner : Bm25 Float) (uri : String) :
    (inner.deleteByUri uri).1 = ((ofBm25 inner).deleteByUri uri).1 ∧
      ofBm25 (inner.deleteByUri uri).2 = ((ofBm25 inner).deleteByUri uri).2 := by
  refine ⟨rfl, ?_⟩
  unfold Bm25.deleteByUri deleteByUri
  have dropped (ids : List UInt32) :
      ofBm25 (ids.foldl Bm25.removeDoc inner) = ids.foldl removeDoc (ofBm25 inner) := by
    induction ids generalizing inner with
    | nil => rfl
    | cons id rest ih =>
      rw [List.foldl_cons, List.foldl_cons, ← ofBm25_removeDoc]
      exact ih _
  exact dropped _

theorem scoreTerm_eq (inner : Bm25 Float) (scores : Table UInt32 Float) (term : String) :
    inner.scoreTerm scores term = (ofBm25 inner).scoreTerm scores term := by
  have index : (ofBm25 inner).index = inner.index := rfl
  have docs : (ofBm25 inner).docs = inner.docs := rfl
  unfold Bm25.scoreTerm scoreTerm
  rw [index]
  cases inner.index.get? term with
  | none => rfl
  | some postings =>
    refine congrArg (fun step => List.foldl step scores postings) ?_
    funext scores posting
    unfold Bm25.scorePosting
    dsimp only
    rw [docs]
    cases inner.docs.get? posting.1 with
    | none => rfl
    | some doc => rfl

end

/-- A search of the engine is one with the numbers of the machine. -/
theorem ofBm25_search [LibraryOrders] (inner : Bm25 Float) (query : String) (topK : Nat) :
    inner.search query topK = (ofBm25 inner).search query topK := by
  have scored : inner.scores query = (tokenize query).foldl (ofBm25 inner).scoreTerm .empty := by
    unfold Bm25.scores
    congr 1
    funext scores term
    exact scoreTerm_eq inner scores term
  unfold Bm25.search
  rw [scored]
  rfl

end Bm25Inner

end OpenMemory.Index
