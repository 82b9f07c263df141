import OpenMemory.Graph.Requests

/-!
# Scores and the best results

Scores are numbers of the machine, and nothing is proved of their values. The best
results of a list are found by a selection that is not stable, and hash maps yield their
entries in any order. Both orders are left open: all that is known of them is that
nothing is lost and nothing is added.
-/

/-!
## Entries, results and errors of the index

An entry is what is indexed, and a result is what a search returns for it. Errors
keep the texts that the stores give them.
-/

namespace OpenMemory.Index

open Foundation

structure SearchResult where
  uri : String
  text : String
  chunkIndex : UInt32
  score : Float32Bits
  deriving DecidableEq

inductive IndexError where
  | sqlite (message : String)
  | io (message : String)
  | corrupt (path detail : String)
  | lock (message : String)
  | dimensionMismatch (expected actual : Nat)
  | invalidInput (message : String)
  | schema (message : String)
  deriving DecidableEq

abbrev IndexResult (α : Type) := Except IndexError α

end OpenMemory.Index

namespace OpenMemory.Index

open Foundation

/-- The orders that the standard library leaves open. -/
class LibraryOrders where
  /-- `select_nth_unstable_by`. -/
  selectNth {α : Type} (before : α → α → Bool) (n : Nat) (items : List α) : List α
  selectNth_perm {α : Type} (before : α → α → Bool) (n : Nat) (items : List α) :
    (selectNth before n items).Perm items
  /-- The order in which a hash map yields its entries. -/
  hashOrder {α : Type} (items : List α) : List α
  hashOrder_perm {α : Type} (items : List α) : (hashOrder items).Perm items

def toFloat32 (x : Float32Bits) : Float32 := Float32.ofBits ⟨x.toBits⟩

def ofFloat32 (x : Float32) : Float32Bits := ⟨x.toBits.toBitVec⟩

/-- `cosine_similarity`. The chunks of its loop come in the order of the numbers. -/
def cosineSimilarity (a b : List Float32Bits) : Float32 :=
  if a.length ≠ b.length ∨ a.isEmpty then 0
  else
    let (dot, na, nb) := (a.zip b).foldl
      (fun (dot, na, nb) (ai, bi) =>
        (dot + toFloat32 ai * toFloat32 bi, na + toFloat32 ai * toFloat32 ai,
          nb + toFloat32 bi * toFloat32 bi))
      (0, 0, 0)
    let denom := (na * nb).sqrt
    if denom == 0 then 0 else dot / denom

variable {α : Type}

/-- `b.partial_cmp(a)` does not put the first behind the second. -/
def notBelow (score : α → Float32) (a b : α) : Bool := !(decide (score a < score b))

/-- The best results, best first. All of them are ranked if none are asked for. -/
def bestRanked [LibraryOrders] (score : α → Float32) (topK : Nat) (items : List α) : List α :=
  let selected :=
    if topK < items.length ∧ 0 < topK then
      (LibraryOrders.selectNth (notBelow score) (topK - 1) items).take topK
    else items
  selected.mergeSort (notBelow score)

/-- The best results are some of the results, and none of them twice. -/
theorem bestRanked_subperm [LibraryOrders] (score : α → Float32) (topK : Nat) (items : List α) :
    (bestRanked score topK items).Subperm items := by
  unfold bestRanked
  refine (List.mergeSort_perm _ _).subperm.trans ?_
  split
  next =>
    exact (List.take_sublist _ _).subperm.trans
      (LibraryOrders.selectNth_perm (notBelow score) (topK - 1) items).subperm
  next => exact List.Subperm.refl items

end OpenMemory.Index
