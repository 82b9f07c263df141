import OpenMemory.Eval.RecallSet

/-!
# Retrieval metrics

Recall, reciprocal rank and discounted gain of one ranked list of keys against
graded judgments. The double-precision arithmetic they are computed in is a
parameter: nothing here depends on how it rounds.

A metric reads the judgments as a collection of relevant keys, as a map from keys
to grades, and as the grades in falling order. So it does not depend on the order
of the judgments, unless one key is judged twice and its grade is the one that is
listed last.
-/

namespace OpenMemory.Eval

open Foundation

/-- The operations on `f64` that an evaluation uses. -/
class DoubleArithmetic (F : Type) where
  /-- `n as f64`. -/
  ofNat : Nat → F
  /-- A hundredth of a number, as the literals of the quantiles are. -/
  hundredths : Nat → F
  add : F → F → F
  sub : F → F → F
  mul : F → F → F
  div : F → F → F
  max : F → F → F
  min : F → F → F
  /-- `2f64.powi(n)`. -/
  twoToThe : Nat → F
  log2 : F → F
  /-- `x.ceil().max(1.0) as usize`. -/
  ceiling : F → Nat
  less : F → F → Bool
  atMost : F → F → Bool
  equal : F → F → Bool
  /-- `(a - b).abs() < 1e-9`. -/
  nearby : F → F → Bool
  isFinite : F → Bool
  infinity : F
  /-- The text of `{:?}`. -/
  debug : F → String

/-- `f64::from` of a score. -/
class ScoreWidening (S F : Type) where
  widen : S → F

open DoubleArithmetic

variable {F : Type} [DoubleArithmetic F]

/-- `iter().sum::<f64>()`, from the left. -/
def total (values : List F) : F := values.foldl add (ofNat 0)

/-! ## The metrics -/

structure Judgment where
  uri : String
  relevance : UInt8

def relevantUris (judgments : List Judgment) : List String :=
  (judgments.filter fun judgment => 0 < judgment.relevance).map (·.uri)

/-- The grade that a map collected from the judgments holds, the last one of a key. -/
def gradeOf (judgments : List Judgment) (uri : String) : UInt8 :=
  ((judgments.reverse.find? fun judgment => judgment.uri = uri).map (·.relevance)).getD 0

def idealGrades (judgments : List Judgment) : List UInt8 :=
  (judgments.map (·.relevance)).insertionSort fun a b => b ≤ a

def rAtK (ranked : List String) (judgments : List Judgment) (k : Nat) : F :=
  let relevant := relevantUris judgments
  if relevant = [] then ofNat 0
  else
    let hits := relevant.countP fun uri => uri ∈ ranked.take k
    div (ofNat hits) (ofNat relevant.length)

/-- Recall at `k` against what a list of `k` could hold. -/
def capacityRAtK (ranked : List String) (judgments : List Judgment) (k : Nat) : F :=
  let relevant := (relevantUris judgments).toFinset
  if relevant = ∅ ∨ k = 0 then ofNat 0
  else
    let hits := (relevant.filter fun uri => uri ∈ ranked.take k).card
    div (ofNat hits) (ofNat (Min.min relevant.card k))

/-- The reciprocal rank of the first relevant document. -/
def mrr (ranked : List String) (judgments : List Judgment) : F :=
  let relevant := (relevantUris judgments).toFinset
  if relevant = ∅ then ofNat 0
  else
    match ranked.findIdx? fun uri => uri ∈ relevant with
    | some i => div (ofNat 1) (ofNat (i + 1))
    | none => ofNat 0

/-- The gain of a grade at a rank, counted from zero. -/
def discountedGain (rank : Nat) (grade : UInt8) : F :=
  div (sub (twoToThe grade.toNat) (ofNat 1)) (log2 (add (ofNat rank) (ofNat 2)))

/-- The discounted gain of the first `k` grades. -/
def dcg (grades : List UInt8) (k : Nat) : F :=
  total ((grades.take k).zipIdx.map fun entry => discountedGain entry.2 entry.1)

/-- Normalised discounted cumulative gain at `k`. -/
def ndcgAtK (ranked : List String) (judgments : List Judgment) (k : Nat) : F :=
  let gain : F := dcg (ranked.map (gradeOf judgments)) k
  let ideal := dcg (idealGrades judgments) k
  if equal ideal (ofNat 0) then ofNat 0 else div gain ideal

/-! ## The order of the judgments -/

/-- The same judgments in some order, with the same grade in force for each key. -/
structure SameJudgments (judgments others : List Judgment) : Prop where
  perm : judgments.Perm others
  grades : ∀ uri, gradeOf judgments uri = gradeOf others uri

namespace SameJudgments

variable {judgments others : List Judgment} (same : SameJudgments judgments others)
  (ranked : List String) (k : Nat)

include same

theorem relevantUris_perm : (relevantUris judgments).Perm (relevantUris others) :=
  (same.perm.filter _).map _

theorem relevantUris_toFinset :
    (relevantUris judgments).toFinset = (relevantUris others).toFinset :=
  List.toFinset_eq_of_perm _ _ same.relevantUris_perm

theorem idealGrades_eq : idealGrades judgments = idealGrades others := by
  have : Std.Total fun a b : UInt8 => b ≤ a := ⟨fun a b => UInt8.le_total b a⟩
  have : IsTrans UInt8 fun a b => b ≤ a := ⟨fun _ _ _ below above => UInt8.le_trans above below⟩
  have : Std.Antisymm fun a b : UInt8 => b ≤ a :=
    ⟨fun _ _ below above => UInt8.le_antisymm above below⟩
  exact insertionSort_eq_of_perm (same.perm.map _)

theorem rAtK_eq : (rAtK ranked judgments k : F) = rAtK ranked others k := by
  have perm := same.relevantUris_perm
  have empty : relevantUris judgments = [] ↔ relevantUris others = [] :=
    ⟨fun h => (h ▸ perm).symm.eq_nil, fun h => (h ▸ perm).eq_nil⟩
  simp only [rAtK, empty, perm.countP_eq, perm.length_eq]

theorem capacityRAtK_eq :
    (capacityRAtK ranked judgments k : F) = capacityRAtK ranked others k := by
  simp only [capacityRAtK, same.relevantUris_toFinset]

theorem mrr_eq : (mrr ranked judgments : F) = mrr ranked others := by
  simp only [mrr, same.relevantUris_toFinset]

theorem ndcgAtK_eq : (ndcgAtK ranked judgments k : F) = ndcgAtK ranked others k := by
  have grades : gradeOf judgments = gradeOf others := funext same.grades
  simp only [ndcgAtK, grades, same.idealGrades_eq]

end SameJudgments

end OpenMemory.Eval
