import OpenMemory.Eval.Metrics

/-!
# Evaluation contracts

A report records what experiment it comes from: a digest of the query set and the
settings of the run. Two reports are compared when no recorded field differs.

The digest is taken over the queries in the order of their ids, each with its
fields behind their lengths. What is hashed can be read back, so two sets with one
digest agree in every field that is hashed, up to the order of the queries, of the
judgments and of the exclusions, and up to an option that is absent or empty. The
hash function is a parameter.
-/

namespace OpenMemory.Eval

open Foundation

def metricVersion : Nat := 2

structure EvaluationContract (F : Type) where
  metricVersion : Nat
  querySetDigest : String
  queryCount : Nat
  corpus : String
  corpusReceipt : Option String
  mode : String
  topK : Nat
  spreadingActivation : Bool
  recordAccess : Bool
  decayRate : Option F

/-! ## The bytes of a query set -/

def keyThenGrade (a b : String × UInt8) : Prop := a.1 < b.1 ∨ (a.1 = b.1 ∧ a.2 ≤ b.2)

instance : DecidableRel keyThenGrade := fun _ _ => inferInstanceAs (Decidable (_ ∨ _))

/-- What the digest reads of a query. -/
structure QueryPrint where
  id : String
  text : String
  category : String
  abstention : String
  group : String
  judgments : List (String × UInt8)
  excluded : List String
  waiver : String
  complete : Bool

def RecallQuery.print (query : RecallQuery) : QueryPrint where
  id := query.id
  text := query.text
  category := query.category
  abstention := if query.expectAbstention then "1" else "0"
  group := query.groupId.getD ""
  judgments := (query.relevant.map fun graded =>
    (graded.key, graded.relevance)).insertionSort keyThenGrade
  excluded := query.exclude.insertionSort (· ≤ ·)
  waiver := (query.capacityWaiver.map (·.reason)).getD ""
  complete := query.judgmentsComplete

/-- A text behind its length. -/
def framedText (text : String) : Bytes := framed (utf8 text)

def judgmentBytes (judgment : String × UInt8) : Bytes :=
  framedText judgment.1 ++ [judgment.2]

def QueryPrint.bytes (print : QueryPrint) : Bytes :=
  framedText print.id ++ (framedText print.text ++ (framedText print.category ++
    (framedText print.abstention ++ (framedText print.group ++
      (counted judgmentBytes print.judgments ++ (counted framedText print.excluded ++
        (framedText print.waiver ++ hashBoolByte print.complete)))))))
where
  hashBoolByte (value : Bool) : Bytes := [if value then 1 else 0]

/-- What is hashed of a query set. -/
def digestInput (set : RecallQuerySet) : Bytes :=
  utf8 "openmemory/eval-query-set/v1" ++
    ((sortedBy RecallQuery.id set.queries).map RecallQuery.print).flatMap QueryPrint.bytes

/-- Half of the hexadecimal digits of the hash. -/
def digestQuerySet (hash : Bytes → Nat) (set : RecallQuerySet) : String :=
  String.ofList ((hexDigits 64 (hash (digestInput set))).take 32)

/-! ## Differences -/

section Differences

variable {F : Type} [DoubleArithmetic F]

/-- A note about a field whose two texts differ. -/
def noteDifference (name a b : String) : Option String :=
  if a ≠ b then some (name ++ ": baseline " ++ a ++ " vs current " ++ b) else none

def boolText (value : Bool) : String := if value then "true" else "false"

theorem boolText_injective : Function.Injective boolText := by
  intro a b same
  cases a <;> cases b <;> simp_all [boolText]

def debugOption : Option F → String
  | none => "None"
  | some value => "Some(" ++ DoubleArithmetic.debug value ++ ")"

def EvaluationContract.differences (contract other : EvaluationContract F) : List String :=
  [noteDifference "metric_version" (toString contract.metricVersion)
      (toString other.metricVersion),
    noteDifference "query_set_digest" contract.querySetDigest other.querySetDigest,
    noteDifference "query_count" (toString contract.queryCount) (toString other.queryCount),
    noteDifference "corpus" contract.corpus other.corpus,
    noteDifference "corpus_receipt" (contract.corpusReceipt.getD "<none>")
      (other.corpusReceipt.getD "<none>"),
    noteDifference "mode" contract.mode other.mode,
    noteDifference "top_k" (toString contract.topK) (toString other.topK),
    noteDifference "spreading_activation" (boolText contract.spreadingActivation)
      (boolText other.spreadingActivation),
    noteDifference "record_access" (boolText contract.recordAccess) (boolText other.recordAccess),
    noteDifference "decay_rate" (debugOption contract.decayRate)
      (debugOption other.decayRate)].reduceOption

theorem noteDifference_eq_none {name a b : String} : noteDifference name a b = none ↔ a = b := by
  unfold noteDifference
  split <;> simp_all

/-- There is no difference where the fields agree as they are written. -/
theorem EvaluationContract.differences_eq_nil {contract other : EvaluationContract F} :
    contract.differences other = [] ↔
      contract.metricVersion = other.metricVersion ∧
        contract.querySetDigest = other.querySetDigest ∧
          contract.queryCount = other.queryCount ∧ contract.corpus = other.corpus ∧
            contract.corpusReceipt.getD "<none>" = other.corpusReceipt.getD "<none>" ∧
              contract.mode = other.mode ∧ contract.topK = other.topK ∧
                contract.spreadingActivation = other.spreadingActivation ∧
                  contract.recordAccess = other.recordAccess ∧
                    debugOption contract.decayRate = debugOption other.decayRate := by
  have numbers (a b : Nat) : toString a = toString b ↔ a = b :=
    ⟨fun same => Nat.repr_injective same, congrArg toString⟩
  rw [differences, List.reduceOption, List.filterMap_eq_nil_iff]
  simp only [List.mem_cons, List.not_mem_nil, or_false, forall_eq_or_imp, forall_eq, id_eq,
    noteDifference_eq_none, numbers, boolText_injective.eq_iff]

/-- Without a difference the fields agree that are recorded as they are. -/
theorem EvaluationContract.eq_of_differences_nil {contract other : EvaluationContract F}
    (silent : contract.differences other = []) :
    contract.querySetDigest = other.querySetDigest ∧ contract.queryCount = other.queryCount ∧
      contract.mode = other.mode ∧ contract.topK = other.topK ∧
        contract.spreadingActivation = other.spreadingActivation ∧
          contract.recordAccess = other.recordAccess := by
  obtain ⟨_, digest, count, _, _, mode, topK, spreading, access, _⟩ :=
    EvaluationContract.differences_eq_nil.mp silent
  exact ⟨digest, count, mode, topK, spreading, access⟩

theorem EvaluationContract.differences_self (contract : EvaluationContract F) :
    contract.differences contract = [] := by
  rw [differences, List.reduceOption, List.filterMap_eq_nil_iff]
  simp [noteDifference]

end Differences

/-! ## What a digest determines -/

/-- The texts of a print are short enough for their lengths to be written. -/
structure QueryPrint.Fits (print : QueryPrint) : Prop where
  texts : ∀ text ∈ [print.id, print.text, print.category, print.abstention, print.group,
    print.waiver], (utf8 text).length < 2 ^ 64
  judgments : print.judgments.length < 2 ^ 64 ∧
    ∀ judgment ∈ print.judgments, (utf8 judgment.1).length < 2 ^ 64
  excluded : print.excluded.length < 2 ^ 64 ∧ ∀ key ∈ print.excluded, (utf8 key).length < 2 ^ 64

theorem selfDelimiting_framedText :
    SelfDelimitingOn (fun text => (utf8 text).length < 2 ^ 64) framedText :=
  selfDelimiting_framed.comap utf8 (fun _ small => small) fun _ _ _ _ same => utf8_injective same

theorem selfDelimiting_judgmentBytes :
    SelfDelimitingOn (fun judgment => (utf8 judgment.1).length < 2 ^ 64) judgmentBytes := by
  intro a b ha hb xs ys same
  simp only [judgmentBytes, List.append_assoc] at same
  obtain ⟨keys, rest⟩ := selfDelimiting_framedText ha hb same
  simp only [List.singleton_append, List.cons.injEq] at rest
  exact ⟨Prod.ext keys rest.1, rest.2⟩

theorem selfDelimiting_printBytes : SelfDelimitingOn QueryPrint.Fits QueryPrint.bytes := by
  intro a b ha hb xs ys same
  have left := ha.texts
  have right := hb.texts
  simp only [List.mem_cons, List.not_mem_nil, or_false, forall_eq_or_imp, forall_eq] at left right
  simp only [QueryPrint.bytes, List.append_assoc] at same
  obtain ⟨ids, same⟩ := selfDelimiting_framedText left.1 right.1 same
  obtain ⟨texts, same⟩ := selfDelimiting_framedText left.2.1 right.2.1 same
  obtain ⟨categories, same⟩ := selfDelimiting_framedText left.2.2.1 right.2.2.1 same
  obtain ⟨flags, same⟩ := selfDelimiting_framedText left.2.2.2.1 right.2.2.2.1 same
  obtain ⟨groups, same⟩ := selfDelimiting_framedText left.2.2.2.2.1 right.2.2.2.2.1 same
  obtain ⟨judgments, same⟩ :=
    selfDelimiting_counted selfDelimiting_judgmentBytes ha.judgments hb.judgments same
  obtain ⟨excluded, same⟩ :=
    selfDelimiting_counted selfDelimiting_framedText ha.excluded hb.excluded same
  obtain ⟨waivers, same⟩ := selfDelimiting_framedText left.2.2.2.2.2 right.2.2.2.2.2 same
  simp only [QueryPrint.bytes.hashBoolByte, List.singleton_append, List.cons.injEq] at same
  have complete : a.complete = b.complete := by
    revert same
    cases a.complete <;> cases b.complete <;> simp
  have equal : a = b := by
    cases a
    cases b
    simp_all
  exact ⟨equal, same.2⟩

theorem length_le_flatMap {α : Type} {encode : α → Bytes} {values : List α} {value : α}
    (member : value ∈ values) : (encode value).length ≤ (values.flatMap encode).length := by
  rw [List.length_flatMap]
  exact List.single_le_sum (fun _ _ => Nat.zero_le _) _
    (List.mem_map_of_mem (f := fun value => (encode value).length) member)

theorem utf8_length_le_framedText (text : String) :
    (utf8 text).length ≤ (framedText text).length := by
  rw [framedText, framed, List.length_append]
  omega

theorem length_le_counted {α : Type} {encode : α → Bytes} {values : List α}
    (nonempty : ∀ value, 0 < (encode value).length) :
    values.length ≤ (counted encode values).length := by
  have each := List.length_le_sum_of_one_le (values.map fun value => (encode value).length)
    fun length member => by
      obtain ⟨value, _, rfl⟩ := List.mem_map.mp member
      exact nonempty value
  rw [List.length_map] at each
  rw [counted, List.length_append, List.length_flatMap]
  omega

theorem length_le_counted_of_mem {α : Type} {encode : α → Bytes} {values : List α} {value : α}
    (member : value ∈ values) : (encode value).length ≤ (counted encode values).length := by
  have inside := @length_le_flatMap α encode values value member
  rw [counted, List.length_append]
  omega

theorem framedText_nonempty (text : String) : 0 < (framedText text).length := by
  rw [framedText, framed, lengthBytes, List.length_append, leBytes_length]
  omega

/-- The texts of a query fit where all that is hashed does. -/
theorem fits_of_mem {set : RecallQuerySet} (short : (digestInput set).length < 2 ^ 64)
    {query : RecallQuery} (member : query ∈ set.queries) : query.print.Fits := by
  have sorted : query.print ∈ (sortedBy RecallQuery.id set.queries).map RecallQuery.print :=
    List.mem_map_of_mem ((sortedBy_perm _).mem_iff.mpr member)
  have whole := @length_le_flatMap _ QueryPrint.bytes _ _ sorted
  rw [digestInput, List.length_append] at short
  generalize query.print = print at whole
  simp only [QueryPrint.bytes, List.length_append] at whole
  have texts (text : String) := utf8_length_le_framedText text
  constructor
  · simp only [List.mem_cons, List.not_mem_nil, or_false, forall_eq_or_imp, forall_eq]
    have id := texts print.id
    have text := texts print.text
    have category := texts print.category
    have abstention := texts print.abstention
    have group := texts print.group
    have waiver := texts print.waiver
    omega
  · have count : print.judgments.length ≤ (counted judgmentBytes print.judgments).length :=
      length_le_counted fun judgment => by simp [judgmentBytes]
    refine ⟨by omega, fun judgment member => ?_⟩
    have inside := @length_le_counted_of_mem _ judgmentBytes _ _ member
    have text := texts judgment.1
    rw [judgmentBytes, List.length_append] at inside
    omega
  · have count : print.excluded.length ≤ (counted framedText print.excluded).length :=
      length_le_counted framedText_nonempty
    refine ⟨by omega, fun key member => ?_⟩
    have inside := @length_le_counted_of_mem _ framedText _ _ member
    have text := texts key
    omega

/-- Sets of one size whose hashed bytes agree have the same prints, by id. -/
theorem prints_of_digestInput {set other : RecallQuerySet}
    (short : (digestInput set).length < 2 ^ 64) (shortOther : (digestInput other).length < 2 ^ 64)
    (count : set.queries.length = other.queries.length)
    (same : digestInput set = digestInput other) :
    sortedBy QueryPrint.id (set.queries.map RecallQuery.print) =
      sortedBy QueryPrint.id (other.queries.map RecallQuery.print) := by
  have fits (set : RecallQuerySet) (short : (digestInput set).length < 2 ^ 64) :
      ∀ print ∈ (sortedBy RecallQuery.id set.queries).map RecallQuery.print, print.Fits := by
    intro print member
    obtain ⟨query, inside, rfl⟩ := List.mem_map.mp member
    exact fits_of_mem short ((sortedBy_perm _).mem_iff.mp inside)
  have bytes := List.append_cancel_left same
  have lengths : ((sortedBy RecallQuery.id set.queries).map RecallQuery.print).length =
      ((sortedBy RecallQuery.id other.queries).map RecallQuery.print).length := by
    rw [List.length_map, List.length_map, (sortedBy_perm _).length_eq,
      (sortedBy_perm _).length_eq, count]
  have padded : ((sortedBy RecallQuery.id set.queries).map RecallQuery.print).flatMap
      QueryPrint.bytes ++ [] = ((sortedBy RecallQuery.id other.queries).map
        RecallQuery.print).flatMap QueryPrint.bytes ++ [] := by
    rw [bytes]
  have prints := (selfDelimiting_printBytes.flatMap (fits set short) (fits other shortOther)
    lengths padded).1
  have keeps (query : RecallQuery) : query.print.id = query.id := rfl
  rwa [map_sortedBy RecallQuery.print keeps, map_sortedBy RecallQuery.print keeps] at prints

/-- In the same order of ids, the queries have the same prints in their places. -/
theorem map_print_of_digestInput {set other : RecallQuerySet}
    (short : (digestInput set).length < 2 ^ 64) (shortOther : (digestInput other).length < 2 ^ 64)
    (ids : set.queries.map RecallQuery.id = other.queries.map RecallQuery.id)
    (same : digestInput set = digestInput other) :
    set.queries.map RecallQuery.print = other.queries.map RecallQuery.print := by
  have count : set.queries.length = other.queries.length := by
    simpa using congrArg List.length ids
  refine @eq_of_sortedBy_eq QueryPrint String _ QueryPrint.id _ _ ?_ ?_
  · rw [List.map_map, List.map_map]
    exact ids
  · exact prints_of_digestInput short shortOther count same

end OpenMemory.Eval
