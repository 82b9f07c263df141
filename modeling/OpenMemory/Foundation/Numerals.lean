import Mathlib

/-!
# Numbers as texts

A decimal text is read from left to right. A character that is no digit is refused
before the number so far is found too large. What a number is printed as is read back
as that number.
-/

namespace Foundation

def emptyNumber : String := "cannot parse integer from empty string"

def invalidDigit : String := "invalid digit found in string"

def tooLarge : String := "number too large to fit in target type"

def tooSmall : String := "number too small to fit in target type"

/-- The digits after a number, as long as it does not exceed the bound. -/
def parseDigits (bound : Nat) (overflow : String) : Nat → List Char → Except String Nat
  | value, [] => .ok value
  | value, c :: rest =>
    if c.isDigit then
      let next := Nat.ofDigitChars 10 [c] value
      if next ≤ bound then parseDigits bound overflow next rest else .error overflow
    else .error invalidDigit

/-- `str::parse` for an unsigned type. -/
def parseUnsigned (bound : Nat) (text : String) : Except String Nat :=
  match text.toList with
  | [] => .error emptyNumber
  | ['+'] => .error invalidDigit
  | '+' :: digits => parseDigits bound tooLarge 0 digits
  | digits => parseDigits bound tooLarge 0 digits

/-- `str::parse` for a signed type of the given greatest value. -/
def parseSigned (bound : Nat) (text : String) : Except String Int :=
  match text.toList with
  | [] => .error emptyNumber
  | ['+'] | ['-'] => .error invalidDigit
  | '+' :: digits => (parseDigits bound tooLarge 0 digits).map Int.ofNat
  | '-' :: digits => (parseDigits (bound + 1) tooSmall 0 digits).map fun n => -Int.ofNat n
  | digits => (parseDigits bound tooLarge 0 digits).map Int.ofNat

theorem le_ofDigitChars (value : Nat) (digits : List Char) :
    value ≤ Nat.ofDigitChars 10 digits value := by
  induction digits generalizing value with
  | nil => exact Nat.le_of_eq Nat.ofDigitChars_nil.symm
  | cons c rest ih =>
    rw [Nat.ofDigitChars_cons]
    have grows : value ≤ 10 * value + (c.toNat - '0'.toNat) := by omega
    exact Nat.le_trans grows (ih _)

theorem parseDigits_eq_ok {bound : Nat} {overflow : String} {value : Nat} {digits : List Char}
    (all : ∀ c ∈ digits, c.isDigit) (small : Nat.ofDigitChars 10 digits value ≤ bound) :
    parseDigits bound overflow value digits = .ok (Nat.ofDigitChars 10 digits value) := by
  induction digits generalizing value with
  | nil => rw [parseDigits, Nat.ofDigitChars_nil]
  | cons c rest ih =>
    have split : Nat.ofDigitChars 10 (c :: rest) value =
        Nat.ofDigitChars 10 rest (Nat.ofDigitChars 10 [c] value) := by
      rw [Nat.ofDigitChars_cons, Nat.ofDigitChars_cons, Nat.ofDigitChars_nil]
    rw [split] at small ⊢
    rw [parseDigits, if_pos (all c List.mem_cons_self)]
    dsimp only
    rw [if_pos (Nat.le_trans (le_ofDigitChars _ rest) small)]
    exact ih (List.forall_mem_cons.mp all).2 small

theorem parseDigits_mono {bound greater : Nat} {overflow other : String} {value n : Nat}
    {digits : List Char} (grows : bound ≤ greater)
    (parsed : parseDigits bound overflow value digits = .ok n) :
    parseDigits greater other value digits = .ok n := by
  induction digits generalizing value with
  | nil => exact parsed
  | cons c rest ih =>
    rw [parseDigits] at parsed ⊢
    dsimp only at parsed ⊢
    split at parsed
    next digit =>
      split at parsed
      next small =>
        rw [if_pos digit, if_pos (Nat.le_trans small grows)]
        exact ih parsed
      next => cases parsed
    next => cases parsed

/-- What an unsigned type reads, a wider signed type reads as the same number. -/
theorem parseSigned_of_parseUnsigned {bound greater n : Nat} {text : String}
    (grows : bound ≤ greater) (parsed : parseUnsigned bound text = .ok n) :
    parseSigned greater text = .ok n := by
  unfold parseUnsigned at parsed
  unfold parseSigned
  split at parsed
  next => cases parsed
  next => cases parsed
  next digits several starts =>
    rw [starts]
    split
    next none_ => cases none_
    next same =>
      cases same
      exact absurd rfl several
    next same => cases same
    next same =>
      cases same
      rw [parseDigits_mono grows parsed]
      rfl
    next same => cases same
    next plain _ => exact absurd rfl (plain digits)
  next unsigned _ _ _ =>
    split
    next empty => exact absurd empty ‹_›
    next sign => exact absurd sign ‹_›
    next sign =>
      rw [sign] at parsed
      cases parsed
    next sign => exact absurd sign (‹∀ digits, text.toList = '+' :: digits → False› _)
    next rest sign =>
      rw [sign] at parsed
      cases parsed
    next =>
      rw [parseDigits_mono grows parsed]
      rfl

section Printed

variable {bound n : Nat}

theorem isDigit_of_mem_repr {c : Char} (member : c ∈ (Nat.repr n).toList) : c.isDigit := by
  rw [Nat.toList_repr] at member
  exact Nat.isDigit_of_mem_toDigits (by decide) (by decide) member

theorem parseDigits_repr (overflow : String) (small : n ≤ bound) :
    parseDigits bound overflow 0 (Nat.repr n).toList = .ok n := by
  have value : Nat.ofDigitChars 10 (Nat.repr n).toList 0 = n := by
    rw [Nat.toList_repr, Nat.ofDigitChars_ten_toDigits]
  rw [parseDigits_eq_ok (fun c member => isDigit_of_mem_repr member) (by rw [value]; exact small),
    value]

theorem repr_ne_sign {rest : List Char} {sign : Char} (signs : sign.isDigit = false) :
    (Nat.repr n).toList ≠ sign :: rest := by
  intro starts
  have digit := @isDigit_of_mem_repr n sign (starts ▸ List.mem_cons_self)
  rw [signs] at digit
  cases digit

theorem repr_ne_nil : (Nat.repr n).toList ≠ [] := by
  rw [Nat.toList_repr]
  exact Nat.toDigits_ne_nil

theorem parseUnsigned_repr (small : n ≤ bound) : parseUnsigned bound (Nat.repr n) = .ok n := by
  unfold parseUnsigned
  split
  next empty => exact absurd empty repr_ne_nil
  next starts => exact absurd starts (repr_ne_sign (by decide))
  next starts => exact absurd starts (repr_ne_sign (by decide))
  next => exact parseDigits_repr tooLarge small

end Printed

/-! ## Canonical numerals -/

theorem digitChar_of_isDigit {c : Char} (digit : c.isDigit) :
    c.toNat - '0'.toNat < 10 ∧ Nat.digitChar (c.toNat - '0'.toNat) = c := by
  have bounds : 48 ≤ c.toNat ∧ c.toNat ≤ 57 := Char.isDigit_iff_toNat.mp digit
  have same : Char.ofNat c.toNat = c := Char.ofNat_toNat c
  obtain ⟨n, small, value⟩ : ∃ n < 10, c.toNat = 48 + n := ⟨c.toNat - 48, by omega, by omega⟩
  have all : ∀ n < 10, 48 + n - '0'.toNat < 10 ∧
      Nat.digitChar (48 + n - '0'.toNat) = Char.ofNat (48 + n) := by decide
  rw [value] at same ⊢
  exact same ▸ all n small

/-- The first digit of a number that is not zero is not zero. -/
theorem head_toDigits {n : Nat} (positive : n ≠ 0) : (Nat.toDigits 10 n).head? ≠ some '0' := by
  induction n using Nat.base_induction 10 (by decide) with
  | single n small =>
    rw [Nat.toDigits_of_lt_base small]
    have all : ∀ n < 10, n ≠ 0 → [Nat.digitChar n].head? ≠ some '0' := by decide
    exact all n small positive
  | digit n digit small some_ ih =>
    rw [← Nat.toDigits_append_toDigits (by decide) some_ small, List.head?_append_of_ne_nil _
      Nat.toDigits_ne_nil]
    exact ih (Nat.ne_of_gt some_)

/-- Digits without a leading zero are what their number is printed as. -/
theorem toDigits_ofDigitChars {digits : List Char} (all : ∀ c ∈ digits, c.isDigit)
    (some_ : digits ≠ []) (lead : digits.head? ≠ some '0') :
    Nat.toDigits 10 (Nat.ofDigitChars 10 digits 0) = digits := by
  induction digits using List.reverseRecOn with
  | nil => exact absurd rfl some_
  | append_singleton first c ih =>
    obtain ⟨small, shown⟩ := digitChar_of_isDigit (all c (by simp))
    rw [Nat.ofDigitChars_append, Nat.ofDigitChars_cons, Nat.ofDigitChars_nil]
    rcases eq_or_ne first [] with rfl | more
    · rw [Nat.ofDigitChars_nil, Nat.mul_zero, Nat.zero_add, Nat.toDigits_of_lt_base small, shown]
      rfl
    · rw [List.head?_append_of_ne_nil _ more] at lead
      have read := ih (fun c member => all c (List.mem_append_left _ member)) more lead
      have positive : 0 < Nat.ofDigitChars 10 first 0 := by
        rw [Nat.pos_iff_ne_zero]
        intro zero
        rw [zero, Nat.toDigits_zero] at read
        rw [← read] at lead
        exact lead rfl
      rw [← Nat.toDigits_append_toDigits (by decide) positive small, read,
        Nat.toDigits_of_lt_base small, shown]

theorem parseDigits_ok {bound : Nat} {overflow : String} {value n : Nat} {digits : List Char}
    (parsed : parseDigits bound overflow value digits = .ok n) (below : value ≤ bound) :
    (∀ c ∈ digits, c.isDigit) ∧ n = Nat.ofDigitChars 10 digits value ∧ n ≤ bound := by
  induction digits generalizing value with
  | nil =>
    obtain rfl := Except.ok.inj parsed
    exact ⟨by simp, Nat.ofDigitChars_nil.symm, below⟩
  | cons c rest ih =>
    rw [parseDigits] at parsed
    split at parsed
    next digit =>
      dsimp only at parsed
      split at parsed
      next small =>
        obtain ⟨all, rfl, bounded⟩ := ih parsed small
        refine ⟨List.forall_mem_cons.mpr ⟨digit, all⟩, ?_, bounded⟩
        rw [Nat.ofDigitChars_cons, Nat.ofDigitChars_cons, Nat.ofDigitChars_nil]
      next => cases parsed
    next => cases parsed

/-- What is read as a number is bounded and written in digits, perhaps after a sign. -/
theorem parseUnsigned_ok {bound n : Nat} {text : String} (parsed : parseUnsigned bound text = .ok n) :
    text.toList ≠ [] ∧ n ≤ bound ∧ ∀ c ∈ text.toList, c = '+' ∨ c.isDigit := by
  rw [parseUnsigned] at parsed
  split at parsed
  next => cases parsed
  next => cases parsed
  next starts =>
    obtain ⟨all, _, small⟩ := parseDigits_ok parsed bound.zero_le
    rw [starts]
    exact ⟨List.cons_ne_nil _ _, small, List.forall_mem_cons.mpr
      ⟨.inl rfl, fun c member => .inr (all c member)⟩⟩
  next some_ _ _ =>
    obtain ⟨all, _, small⟩ := parseDigits_ok parsed bound.zero_le
    exact ⟨some_, small, fun c member => .inr (all c member)⟩

/-- **A number has one canonical text**: without a sign and without a leading zero. -/
theorem repr_eq_iff_of_parseUnsigned {bound n : Nat} {text : String} (positive : n ≠ 0)
    (parsed : parseUnsigned bound text = .ok n) :
    Nat.repr n = text ↔ text.toList.head? ≠ some '+' ∧ text.toList.head? ≠ some '0' := by
  constructor
  · rintro rfl
    refine ⟨fun sign => ?_, by rw [Nat.toList_repr]; exact head_toDigits positive⟩
    obtain ⟨rest, starts⟩ := List.head?_eq_some_iff.mp sign
    exact repr_ne_sign (by decide) starts
  · rintro ⟨unsigned, lead⟩
    rw [parseUnsigned] at parsed
    split at parsed
    next => cases parsed
    next => cases parsed
    next starts => exact absurd (by rw [starts]; rfl) unsigned
    next some_ _ _ =>
      obtain ⟨all, rfl, _⟩ := parseDigits_ok parsed bound.zero_le
      rw [← String.toList_inj, Nat.toList_repr]
      exact toDigits_ofDigitChars all some_ lead

end Foundation
