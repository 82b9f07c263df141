import Mathlib

/-!
# Numbers that may be no numbers

A number of single precision is its bit pattern. Nothing here computes with patterns: they are
stored, compared bit by bit and checked to lie in a range.

A floating-point number read without its rounding is a rational, one of the two
infinities or no number at all. The comparisons are those of IEEE 754: what is no
number compares with nothing, itself included, so that a comparison which is false
says little until both sides are known to be finite. Where they are, the
comparisons are the order of the rationals, and one of them is the negation of
the other.
-/

namespace Foundation

/-! ## Bit patterns -/

/-- An `f32`, as its 32 bits. -/
structure Float32Bits where
  toBits : BitVec 32
  deriving DecidableEq

namespace Float32Bits

/-- The exponent and the mantissa, which order numbers of one sign. -/
def magnitude (x : Float32Bits) : Nat := x.toBits.toNat % 2 ^ 31

def isSignNegative (x : Float32Bits) : Bool := 2 ^ 31 ≤ x.toBits.toNat

/-- Neither infinite nor NaN. -/
def isFinite (x : Float32Bits) : Bool := x.magnitude < 0x7F800000

def isNan (x : Float32Bits) : Bool := 0x7F800000 < x.magnitude

/-- `x < 0.0`, which neither negative zero nor NaN satisfies. -/
def isNegative (x : Float32Bits) : Bool := x.isSignNegative && x.magnitude != 0 && !x.isNan

/-- The position of a number in the order of `total_cmp`, in which the patterns
with a sign bit come first and downwards. -/
def totalOrder (x : Float32Bits) : Int :=
  if x.isSignNegative then -(x.magnitude : Int) - 1 else x.magnitude

/-- The position of a number that is not NaN among the numbers; both zeros are
in one place. -/
def position (x : Float32Bits) : Int :=
  if x.isSignNegative then -(x.magnitude : Int) else x.magnitude

/-- `x < y`, which NaN is on neither side of. -/
def less (x y : Float32Bits) : Bool := !x.isNan && !y.isNan && x.position < y.position

/-- `x >= y`, which NaN is on neither side of. -/
def atLeast (x y : Float32Bits) : Bool := !x.isNan && !y.isNan && y.position ≤ x.position

def zero : Float32Bits := ⟨0⟩

def one : Float32Bits := ⟨0x3F800000⟩

def nan : Float32Bits := ⟨0x7FC00000⟩

/-- `(0.0..=1.0).contains(&x)`, which negative zero passes and NaN does not. -/
def inUnitInterval (x : Float32Bits) : Bool :=
  if x.isSignNegative then x.magnitude == 0 else x.magnitude ≤ 0x3F800000

/-- `x.clamp(0.0, 1.0)`: NaN stays NaN, and negative zero is not below zero. -/
def clampUnit (x : Float32Bits) : Float32Bits :=
  if x.isNan then x
  else if x.isSignNegative then if x.magnitude = 0 then x else zero
  else if 0x3F800000 < x.magnitude then one
  else x

end Float32Bits

/-! ## Numbers without rounding -/

/-- A number as IEEE 754 has it, without rounding and without a sign on zero. -/
inductive IeeeNumber where
  | rational (value : ℚ)
  | infinite (negative : Bool)
  | nan
  deriving DecidableEq

namespace IeeeNumber

def isFinite : IeeeNumber → Bool
  | rational _ => true
  | infinite _ => false
  | nan => false

def sub : IeeeNumber → IeeeNumber → IeeeNumber
  | rational a, rational b => rational (a - b)
  | rational _, infinite negative => infinite !negative
  | infinite negative, rational _ => infinite negative
  | infinite negative, infinite other => if negative = other then nan else infinite negative
  | _, nan => nan
  | nan, _ => nan

def less : IeeeNumber → IeeeNumber → Bool
  | rational a, rational b => a < b
  | rational _, infinite negative => !negative
  | infinite negative, rational _ => negative
  | infinite negative, infinite other => negative && !other
  | _, nan => false
  | nan, _ => false

def equal : IeeeNumber → IeeeNumber → Bool
  | nan, _ => false
  | a, b => a = b

def atMost (a b : IeeeNumber) : Bool := less a b || equal a b

/-! ## Finite numbers -/

theorem isFinite_iff {a : IeeeNumber} : a.isFinite = true ↔ ∃ value, a = rational value := by
  cases a <;> simp [isFinite]

@[simp]
theorem atMost_rational {a b : ℚ} : atMost (rational a) (rational b) = true ↔ a ≤ b := by
  simp [atMost, less, equal, le_iff_lt_or_eq]

theorem eq_of_equal {a b : IeeeNumber} (same : equal a b = true) : a = b := by
  cases a with
  | nan => cases same
  | rational value => exact of_decide_eq_true same
  | infinite negative => exact of_decide_eq_true same

/-! ## Drops -/

/-- A value fell from one number to another by no more than a limit, all three finite. -/
def FallsWithin (before after limit : IeeeNumber) : Prop :=
  ∃ b a l, before = rational b ∧ after = rational a ∧ limit = rational l ∧ b - a ≤ l

/-- Of finite numbers, a fall that does not exceed the limit is within it. -/
theorem fallsWithin_of_not_less {before after limit : IeeeNumber}
    (beforeFinite : before.isFinite = true) (afterFinite : after.isFinite = true)
    (limitFinite : limit.isFinite = true)
    (notMore : less limit (sub before after) = false) : FallsWithin before after limit := by
  obtain ⟨b, rfl⟩ := isFinite_iff.mp beforeFinite
  obtain ⟨a, rfl⟩ := isFinite_iff.mp afterFinite
  obtain ⟨l, rfl⟩ := isFinite_iff.mp limitFinite
  refine ⟨b, a, l, rfl, rfl, rfl, ?_⟩
  have notBelow : ¬ l < b - a := by
    simpa [sub, less] using notMore
  linarith

theorem fallsWithin_of_atMost {before after limit : IeeeNumber}
    (beforeFinite : before.isFinite = true) (afterFinite : after.isFinite = true)
    (limitFinite : limit.isFinite = true)
    (within : atMost (sub before after) limit = true) : FallsWithin before after limit := by
  obtain ⟨b, rfl⟩ := isFinite_iff.mp beforeFinite
  obtain ⟨a, rfl⟩ := isFinite_iff.mp afterFinite
  obtain ⟨l, rfl⟩ := isFinite_iff.mp limitFinite
  exact ⟨b, a, l, rfl, rfl, rfl, atMost_rational.mp within⟩

end IeeeNumber

end Foundation
