import OpenMemory.Foundation.Failures
import OpenMemory.Foundation.Sorting
import OpenMemory.Foundation.ByteCodec

/-!
# Query sets

A query set lists questions with their graded answers. A query says how its
judgments are to be read: which documents are its own source, whether it has more
answers than a ranking can hold, whether the judgments are complete, and where
they come from.
-/

namespace OpenMemory.Eval

open Foundation

inductive JudgmentSource where
  | generated
  | modelAdjudicated
  | humanReviewed

def JudgmentSource.asStr : JudgmentSource → String
  | .generated => "generated"
  | .modelAdjudicated => "model-adjudicated"
  | .humanReviewed => "human-reviewed"

/-- A declaration that a query has more right answers than a ranking can hold. -/
structure CapacityWaiver where
  reason : String

structure GradedKey where
  key : String
  relevance : UInt8

structure RecallQuery where
  id : String
  text : String
  category : String
  relevant : List GradedKey
  exclude : List String
  capacityWaiver : Option CapacityWaiver
  judgmentsComplete : Bool
  expectAbstention : Bool
  judgmentSource : JudgmentSource
  groupId : Option String

structure RecallQuerySet where
  name : String
  queries : List RecallQuery

/-! ## Validation -/

/-- The text of `{:?}` for a string. -/
class DebugText where
  quoted : String → String

section Validation

variable [DebugText]

open DebugText

def blankText (value : String) : Bool := (trim value).isEmpty

def GradedKey.check (id : String) (graded : GradedKey) : Except String Unit := do
  refuseIf (3 < graded.relevance) ("query " ++ quoted id ++ " judgment " ++ quoted graded.key ++
    " has relevance " ++ toString graded.relevance.toNat ++ " outside 0..=3")
  refuseIf (blankText graded.key) ("query " ++ quoted id ++ " has an empty judgment key")

/-- The loop over the judged keys, with those seen before. -/
def refuseRepeats (id : String) : List String → List GradedKey → Except String Unit
  | _, [] => pure ()
  | seen, graded :: rest => do
      refuseIf (graded.key ∈ seen)
        ("query " ++ quoted id ++ " lists duplicate judgment key " ++ quoted graded.key)
      refuseRepeats id (graded.key :: seen) rest

/-- Reject queries that contradict themselves. -/
def RecallQuery.validate (query : RecallQuery) : Except String Unit := do
  refuseIf (blankText query.id) "query id must not be empty"
  refuseIf (blankText query.text) ("query " ++ quoted query.id ++ " has empty text")
  refuseIf (blankText query.category) ("query " ++ quoted query.id ++ " has empty category")
  refuseIf (query.expectAbstention ∧ query.relevant ≠ []) ("query " ++ quoted query.id ++
    " expects abstention but lists " ++ toString query.relevant.length ++ " relevant documents")
  refuseIf (¬ query.expectAbstention ∧ query.relevant = []) ("query " ++ quoted query.id ++
    " lists no relevant documents and is not marked expect_abstention; it would score zero for " ++
    "every strategy and only add noise")
  query.relevant.forM (GradedKey.check query.id)
  refuseRepeats query.id [] query.relevant
  query.capacityWaiver.forM fun waiver => do
    refuseIf (blankText waiver.reason) ("query " ++ quoted query.id ++
      " declares a capacity waiver with no reason; an exception to the recall-ceiling gate has " ++
      "to say why the question genuinely has more than K right answers")
    refuseIf query.expectAbstention ("query " ++ quoted query.id ++ " expects abstention and " ++
      "declares a capacity waiver; a query with no right answers cannot have too many")
  query.exclude.forM fun key => do
    refuseIf (blankText key) ("query " ++ quoted query.id ++ " has an empty exclusion key")
    refuseIf (key ∈ query.relevant.map (·.key)) ("query " ++ quoted query.id ++
      " both judges and excludes " ++ quoted key ++
      "; a document cannot be the query's source and its answer")

theorem refuseRepeats_eq_ok {id : String} {seen : List String} {graded : List GradedKey} :
    refuseRepeats id seen graded = .ok () ↔
      (graded.map (·.key)).Nodup ∧ ∀ key ∈ graded.map (·.key), key ∉ seen := by
  induction graded generalizing seen with
  | nil => exact iff_of_true rfl ⟨List.nodup_nil, fun key member => (List.not_mem_nil member).elim⟩
  | cons first rest ih =>
    rw [refuseRepeats, bind_eq_ok, List.map_cons, List.nodup_cons, List.forall_mem_cons]
    simp only [refuseIf_eq_ok, ih]
    constructor
    · rintro ⟨_, fresh, distinct, unseen⟩
      refine ⟨⟨fun member => unseen _ member List.mem_cons_self, distinct⟩, fresh, ?_⟩
      exact fun key member listed => unseen key member (List.mem_cons_of_mem _ listed)
    · rintro ⟨⟨once, distinct⟩, fresh, unseen⟩
      refine ⟨(), fresh, distinct, fun key member listed => ?_⟩
      rcases List.mem_cons.mp listed with rfl | before
      · exact once member
      · exact unseen key member before

/-- A valid query judges no key twice. -/
theorem RecallQuery.keys_nodup {query : RecallQuery} (valid : query.validate = .ok ()) :
    (query.relevant.map (·.key)).Nodup := by
  simp only [RecallQuery.validate, bind_eq_ok] at valid
  obtain ⟨_, _, _, _, _, _, _, _, _, _, _, _, _, distinct, _⟩ := valid
  exact (refuseRepeats_eq_ok.mp distinct).1

end Validation

def RecallQuery.relevantKeys (query : RecallQuery) : List String :=
  (query.relevant.filter fun graded => 0 < graded.relevance).map (·.key)

end OpenMemory.Eval
