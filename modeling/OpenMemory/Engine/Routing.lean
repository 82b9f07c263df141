import OpenMemory.Engine.Partition

/-!
# Lower-cased names and the hash that routes them

`str::to_lowercase` maps every character by itself but one: a capital sigma at the
end of a word becomes a final sigma. Where a word ends is told by the characters
around it, past those that case ignores. The routing hash lower-cases character by
character, so it sees an ordinary sigma in each of these places.

Both texts have the same length, and differ exactly in the places of the final
sigmas. So either of them is recovered from the other and these places.
-/

namespace OpenMemory.Engine.Partition

open Foundation

/-- The properties `Cased` and `Case_Ignorable` of the Unicode database. -/
class CaseProperties where
  cased : Char → Bool
  caseIgnorable : Char → Bool

/-- The capital sigma has a lower case of its own. -/
class LawfulNameHash [NameHash] : Prop where
  charToLowercase_sigma : NameHash.charToLowercase 'Σ' = ['σ']

section Lowercase

variable [CaseProperties]

/-- A cased character comes first, past those that case ignores. -/
def caseIgnorableThenCased (chars : List Char) : Bool :=
  (chars.dropWhile CaseProperties.caseIgnorable).head?.any CaseProperties.cased

/-- Whether a word ends between what comes before, read backwards, and what comes
after. -/
def isWordFinal (before after : List Char) : Bool :=
  caseIgnorableThenCased before && !caseIgnorableThenCased after

variable [NameHash]

/-- The lower case of characters that others come before, these read backwards. -/
def lowercaseFrom : List Char → List Char → List Char
  | _, [] => []
  | before, c :: rest =>
    (if c = 'Σ' then if isWordFinal before rest then ['ς'] else ['σ']
      else NameHash.charToLowercase c) ++ lowercaseFrom (c :: before) rest

/-- `str::to_lowercase`. -/
def toLowercase (key : String) : String := String.ofList (lowercaseFrom [] key.toList)

/-- For every character of the lower case, whether it is a final sigma for a capital. -/
def finalsFrom : List Char → List Char → List Bool
  | _, [] => []
  | before, c :: rest =>
    (if c = 'Σ' then [isWordFinal before rest]
      else List.replicate (NameHash.charToLowercase c).length false) ++
        finalsFrom (c :: before) rest

def finalSigmas (key : String) : List Bool := finalsFrom [] key.toList

/-- A capital sigma stands at the end of a word. -/
def HasFinalSigma (key : String) : Prop :=
  ∃ before after, key.toList = before ++ 'Σ' :: after ∧ isWordFinal before.reverse after = true

/-- The hash of the bytes that a lower-cased name writes to a hasher. -/
def lowercaseHash (key : String) : UInt64 := NameHash.finish (utf8 (toLowercase key) ++ [0xFF])

end Lowercase

/-! ## Shards -/

section Shards

variable [NameHash]

def shardFor (entity : String) (shards : Nat) : Nat := (hashLowercaseKey entity).toNat % shards

/-- The domain that a shard drains into. -/
def domainOfShard (shard domains : Nat) : Nat := shard % domains

/-- Shards and domains agree where the domain count divides the shard count. -/
theorem domainOfShard_shardFor (entity : String) {shards domains : Nat} (some_ : 0 < domains)
    (divides : domains ∣ shards) :
    domainOfShard (shardFor entity shards) domains = domainFor entity domains := by
  have positive : max domains 1 = domains := max_eq_left some_
  rw [domainOfShard, shardFor, domainFor, positive]
  exact Nat.mod_mod_of_dvd _ divides

end Shards

/-! ## The two lower cases -/

section Places

variable [CaseProperties] [NameHash]

/-- Every character in lower case by itself. -/
def charwiseFrom (chars : List Char) : List Char := chars.flatMap NameHash.charToLowercase

/-- An ordinary sigma for a final one. -/
def ordinary (c : Char) (final : Bool) : Char := if final then 'σ' else c

omit [CaseProperties] [NameHash] in
theorem zipWith_ordinary_replicate (chars : List Char) :
    List.zipWith ordinary chars (List.replicate chars.length false) = chars := by
  induction chars with
  | nil => rfl
  | cons c rest ih =>
    rw [List.length_cons, List.replicate_succ, List.zipWith_cons_cons, ih]
    rfl

theorem length_finalsFrom (before chars : List Char) :
    (finalsFrom before chars).length = (lowercaseFrom before chars).length := by
  induction chars generalizing before with
  | nil => rfl
  | cons c rest ih =>
    rw [finalsFrom, lowercaseFrom, List.length_append, List.length_append, ih]
    congr 1
    split
    · split <;> rfl
    · exact List.length_replicate

/-- Without its final sigmas, the lower case is that of the single characters. -/
theorem charwise_eq [LawfulNameHash] (before chars : List Char) :
    charwiseFrom chars =
      List.zipWith ordinary (lowercaseFrom before chars) (finalsFrom before chars) := by
  induction chars generalizing before with
  | nil => rfl
  | cons c rest ih =>
    rw [charwiseFrom, List.flatMap_cons, ← charwiseFrom, ih (c :: before), lowercaseFrom,
      finalsFrom]
    by_cases sigma : c = 'Σ'
    · rw [if_pos sigma, if_pos sigma, sigma, LawfulNameHash.charToLowercase_sigma]
      cases isWordFinal before rest <;> rfl
    · rw [if_neg sigma, if_neg sigma, List.zipWith_append List.length_replicate.symm,
        zipWith_ordinary_replicate]

/-- The final sigmas are where the two lower cases differ. -/
theorem finals_eq [LawfulNameHash] (before chars : List Char) :
    finalsFrom before chars =
      List.zipWith (fun lower single => decide (lower ≠ single)) (lowercaseFrom before chars)
        (charwiseFrom chars) := by
  induction chars generalizing before with
  | nil => rfl
  | cons c rest ih =>
    rw [charwiseFrom, List.flatMap_cons, ← charwiseFrom, lowercaseFrom, finalsFrom,
      ih (c :: before)]
    by_cases sigma : c = 'Σ'
    · rw [if_pos sigma, if_pos sigma, sigma, LawfulNameHash.charToLowercase_sigma]
      cases isWordFinal before rest <;> rfl
    · rw [if_neg sigma, if_neg sigma, List.zipWith_append rfl]
      congr 1
      generalize NameHash.charToLowercase c = single
      induction single with
      | nil => rfl
      | cons d others ih =>
        rw [List.length_cons, List.replicate_succ, List.zipWith_cons_cons, ih]
        simp

theorem mem_finalsFrom (before chars : List Char) :
    true ∈ finalsFrom before chars ↔ ∃ front after, chars = front ++ 'Σ' :: after ∧
      isWordFinal (front.reverse ++ before) after = true := by
  induction chars generalizing before with
  | nil => simp [finalsFrom]
  | cons c rest ih =>
    rw [finalsFrom, List.mem_append, ih]
    constructor
    · rintro (here | ⟨front, after, rfl, final⟩)
      · by_cases sigma : c = 'Σ'
        · rw [if_pos sigma, List.mem_singleton] at here
          exact ⟨[], rest, by rw [sigma, List.nil_append], here.symm⟩
        · rw [if_neg sigma] at here
          exact absurd (List.eq_of_mem_replicate here) (by decide)
      · refine ⟨c :: front, after, rfl, ?_⟩
        rwa [List.reverse_cons, List.append_assoc, List.singleton_append]
    · rintro ⟨front, after, split, final⟩
      cases front with
      | nil =>
        rw [List.nil_append, List.cons.injEq] at split
        obtain ⟨rfl, rfl⟩ := split
        left
        rw [if_pos rfl, List.mem_singleton]
        exact final.symm
      | cons d front =>
        rw [List.cons_append, List.cons.injEq] at split
        obtain ⟨rfl, rfl⟩ := split
        right
        refine ⟨front, after, rfl, ?_⟩
        rwa [List.reverse_cons, List.append_assoc, List.singleton_append] at final

theorem mem_finalSigmas {key : String} : true ∈ finalSigmas key ↔ HasFinalSigma key := by
  rw [finalSigmas, mem_finalsFrom]
  simp only [List.append_nil]
  rfl

/-- The two lower cases are one exactly where no capital sigma ends a word. -/
theorem charwise_eq_lowercase_iff [LawfulNameHash] {key : String} :
    charwiseFrom key.toList = lowercaseFrom [] key.toList ↔ ¬ HasFinalSigma key := by
  rw [← mem_finalSigmas, finalSigmas]
  constructor
  · intro same
    rw [finals_eq, same]
    intro member
    rw [List.zipWith_self] at member
    simp at member
  · intro none
    rw [charwise_eq []]
    have marks : finalsFrom [] key.toList =
        List.replicate (lowercaseFrom [] key.toList).length false := by
      rw [← length_finalsFrom, List.eq_replicate_iff]
      refine ⟨rfl, fun mark member => ?_⟩
      cases mark with
      | false => rfl
      | true => exact absurd member none
    rw [marks, zipWith_ordinary_replicate]

/-- Names with one lower case are the same character by character exactly where their
final sigmas are in the same places. -/
theorem charwise_eq_iff_finals [LawfulNameHash] {key other : String}
    (same : toLowercase key = toLowercase other) :
    charwiseFrom key.toList = charwiseFrom other.toList ↔ finalSigmas key = finalSigmas other := by
  have lower : lowercaseFrom [] key.toList = lowercaseFrom [] other.toList :=
    String.ofList_injective same
  constructor
  · intro single
    rw [finalSigmas, finalSigmas, finals_eq, finals_eq, lower, single]
  · intro finals
    rw [charwise_eq [], charwise_eq [], lower]
    exact congrArg _ finals

end Places

end OpenMemory.Engine.Partition
