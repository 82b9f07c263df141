import OpenMemory.Foundation.Lines

/-!
# The bytes that standard types feed to a hasher

`Hash` of the standard library writes a value to a hasher as bytes: a text with
the byte `0xff` behind it, which no text contains, an option with its
discriminant, a sequence with its length. Each of these encodings can be read
back from the front of a longer byte string, so a key made of several of them
determines each.
-/

namespace Foundation

universe u

variable {α : Type u}

/-- A `str`. -/
def hashStr (value : String) : Bytes := utf8 value ++ [0xFF]

/-- An `Option`: its discriminant, and the value if there is one. -/
def hashOption (hashValue : α → Bytes) : Option α → Bytes
  | none => leBytes 8 0
  | some value => leBytes 8 1 ++ hashValue value

def hashBool (value : Bool) : Bytes := [if value then 1 else 0]

/-- No byte of a character is `0xff`. -/
theorem lt_of_mem_utf8EncodeChar {c : Char} {b : UInt8} (member : b ∈ String.utf8EncodeChar c) :
    b.toNat < 0xFF := by
  have scalar : c.val.toNat < 0x110000 := by
    rcases c.valid with low | high
    · exact low.trans (by decide)
    · exact high.2
  unfold String.utf8EncodeChar at member
  dsimp only at member
  split at member
  · simp only [List.mem_singleton] at member
    subst member
    simp only [UInt8.toNat_ofNat']
    omega
  · split at member
    · simp only [List.mem_cons, List.not_mem_nil, or_false] at member
      rcases member with rfl | rfl <;> simp only [UInt8.toNat_ofNat'] <;> omega
    · split at member
      · simp only [List.mem_cons, List.not_mem_nil, or_false] at member
        rcases member with rfl | rfl | rfl <;> simp only [UInt8.toNat_ofNat'] <;> omega
      · simp only [List.mem_cons, List.not_mem_nil, or_false] at member
        rcases member with rfl | rfl | rfl | rfl <;> simp only [UInt8.toNat_ofNat'] <;> omega

theorem not_mem_utf8_ofList (chars : List Char) :
    (0xFF : UInt8) ∉ utf8 (String.ofList chars) := by
  induction chars with
  | nil =>
    intro member
    cases member
  | cons c rest ih =>
    rw [utf8_ofList_cons, List.mem_append, not_or]
    refine ⟨fun inside => ?_, ih⟩
    have below := lt_of_mem_utf8EncodeChar inside
    exact absurd below (by decide)

theorem not_mem_utf8 (value : String) : (0xFF : UInt8) ∉ utf8 value := by
  have apart := not_mem_utf8_ofList value.toList
  rwa [String.ofList_toList] at apart

/-- Two byte strings that a byte ends which neither contains. -/
theorem append_cons_inj {xs ys first last : Bytes} {b : UInt8} (left : b ∉ xs) (right : b ∉ ys)
    (same : xs ++ b :: first = ys ++ b :: last) : xs = ys ∧ first = last := by
  induction xs generalizing ys with
  | nil =>
    cases ys with
    | nil => exact ⟨rfl, (List.cons.inj same).2⟩
    | cons y ys => exact absurd ((List.cons.inj same).1 ▸ List.mem_cons_self) right
  | cons x xs ih =>
    cases ys with
    | nil => exact absurd ((List.cons.inj same).1 ▸ List.mem_cons_self) left
    | cons y ys =>
      obtain ⟨head, tails⟩ := List.cons.inj same
      obtain ⟨rests, ends⟩ := ih (fun inside => left (List.mem_cons_of_mem _ inside))
        (fun inside => right (List.mem_cons_of_mem _ inside)) tails
      exact ⟨by rw [head, rests], ends⟩

theorem selfDelimiting_hashStr : SelfDelimiting hashStr := by
  intro left right _ _ xs ys same
  simp only [hashStr, List.append_assoc, List.singleton_append] at same
  obtain ⟨texts, rest⟩ := append_cons_inj (not_mem_utf8 left) (not_mem_utf8 right) same
  exact ⟨utf8_injective texts, rest⟩

theorem selfDelimiting_hashOption {valid : α → Prop} {hashValue : α → Bytes}
    (delimited : SelfDelimitingOn valid hashValue) :
    SelfDelimitingOn (fun value => ∀ a ∈ value, valid a) (hashOption hashValue) :=
  delimited.option (show leBytes 8 0 ≠ leBytes 8 1 by decide) rfl rfl fun _ => rfl

theorem selfDelimiting_hashBool : SelfDelimiting hashBool := by
  have length : ∀ value, True → (hashBool value).length = 1 := fun _ _ => rfl
  refine SelfDelimitingOn.of_fixed_length length ?_
  decide

end Foundation

/-!
## The hash function of the standard library

A plain evaluation of SipHash-1-3 with both keys zero, which is what a
`DefaultHasher` computes of the bytes it is given. Nothing is proved about it:
models keep the hash function a parameter. It is written to be evaluated.
-/

namespace Foundation

namespace SipHash

/-- The four words of the state. -/
structure Words where
  v0 : UInt64
  v1 : UInt64
  v2 : UInt64
  v3 : UInt64

def rotated (word : UInt64) (left : UInt64) : UInt64 :=
  (word <<< left) ||| (word >>> (64 - left))

def sipRound (s : Words) : Words :=
  let v0 := s.v0 + s.v1
  let v1 := rotated s.v1 13 ^^^ v0
  let v0 := rotated v0 32
  let v2 := s.v2 + s.v3
  let v3 := rotated s.v3 16 ^^^ v2
  let v0 := v0 + v3
  let v3 := rotated v3 21 ^^^ v0
  let v2 := v2 + v1
  let v1 := rotated v1 17 ^^^ v2
  ⟨v0, v1, rotated v2 32, v3⟩

def absorb (s : Words) (word : UInt64) : Words :=
  let mixed := sipRound { s with v3 := s.v3 ^^^ word }
  { mixed with v0 := mixed.v0 ^^^ word }

/-- The number that at most eight bytes stand for, the least significant first. -/
def littleEndian : Bytes → UInt64
  | [] => 0
  | byte :: rest => byte.toUInt64 + 256 * littleEndian rest

/-- Take in the whole words, and give back the bytes that are left. -/
def absorbAll : Words → Bytes → Words × Bytes
  | s, a :: b :: c :: d :: e :: f :: g :: h :: rest =>
    absorbAll (absorb s (littleEndian [a, b, c, d, e, f, g, h])) rest
  | s, rest => (s, rest)

def initial : Words :=
  ⟨0x736f6d6570736575, 0x646f72616e646f6d, 0x6c7967656e657261, 0x7465646279746573⟩

/-- The hash of a byte string. -/
def digest (bytes : Bytes) : UInt64 :=
  let (s, rest) := absorbAll initial bytes
  let s := absorb s (littleEndian rest + (UInt64.ofNat bytes.length <<< 56))
  let s := sipRound (sipRound (sipRound { s with v2 := s.v2 ^^^ 0xff }))
  s.v0 ^^^ s.v1 ^^^ s.v2 ^^^ s.v3

end SipHash

end Foundation
