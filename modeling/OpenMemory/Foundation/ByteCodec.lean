import Mathlib

/-!
# Byte encodings that can be read back

An encoder is self-delimiting when a byte string that starts with an encoded
value determines both the value and the rest of the string. Encoders of this
kind may be written one after another without separators, so an encoding of a
record is read back field by field.

Two sources of self-delimiting encoders are enough here: encoders of a fixed
length, and length-framed ones. A frame stores a 64-bit length, so it is
faithful below `2 ^ 64` bytes only; `SelfDelimitingOn` carries such a bound as
a predicate on the values.
-/

namespace Foundation

abbrev Bytes := List UInt8

/-! ## Numbers in a fixed number of bytes -/

/-- The `width` low bytes of a number, least significant first. -/
def leBytes : Nat → Nat → Bytes
  | 0, _ => []
  | width + 1, n => UInt8.ofNat n :: leBytes width (n / 256)

@[simp] theorem leBytes_length (width n : Nat) : (leBytes width n).length = width := by
  induction width generalizing n with
  | zero => rfl
  | succ width ih => simp [leBytes, ih]

variable {n width m : Nat}

theorem leBytes_injective (hm : m < 256 ^ width) (hn : n < 256 ^ width)
    (same : leBytes width m = leBytes width n) : m = n := by
  induction width generalizing m n with
  | zero =>
    simp only [pow_zero] at hm hn
    omega
  | succ width ih =>
    simp only [leBytes, List.cons.injEq] at same
    obtain ⟨low, high⟩ := same
    have lowEq : m % 256 = n % 256 := by
      have := congrArg UInt8.toNat low
      simpa using this
    have highEq : m / 256 = n / 256 := by
      apply ih _ _ high
      · rw [pow_succ] at hm
        exact Nat.div_lt_of_lt_mul (by omega)
      · rw [pow_succ] at hn
        exact Nat.div_lt_of_lt_mul (by omega)
    omega

/-- The `width` low bytes of a number, most significant first. -/
def beBytes (width n : Nat) : Bytes := (leBytes width n).reverse

@[simp] theorem beBytes_length (width n : Nat) : (beBytes width n).length = width := by
  simp [beBytes]

theorem beBytes_injective (hm : m < 256 ^ width) (hn : n < 256 ^ width)
    (same : beBytes width m = beBytes width n) : m = n :=
  leBytes_injective hm hn (List.reverse_injective same)

/-! ## Hexadecimal digits -/

/-- A lower-case hexadecimal digit. -/
def hexDigit (n : Nat) : Char :=
  if n < 10 then Char.ofNat (48 + n) else Char.ofNat (87 + n)

theorem hexDigit_injective (hm : m < 16) (hn : n < 16)
    (same : hexDigit m = hexDigit n) : m = n := by
  have all : ∀ i < 16, ∀ j < 16, hexDigit i = hexDigit j → i = j := by decide
  exact all m hm n hn same

/-- The `width` low hexadecimal digits of a number, least significant first. -/
def leHexDigits : Nat → Nat → List Char
  | 0, _ => []
  | width + 1, n => hexDigit (n % 16) :: leHexDigits width (n / 16)

@[simp] theorem leHexDigits_length (width n : Nat) : (leHexDigits width n).length = width := by
  induction width generalizing n with
  | zero => rfl
  | succ width ih => simp [leHexDigits, ih]

theorem leHexDigits_injective (hm : m < 16 ^ width) (hn : n < 16 ^ width)
    (same : leHexDigits width m = leHexDigits width n) : m = n := by
  induction width generalizing m n with
  | zero =>
    simp only [pow_zero] at hm hn
    omega
  | succ width ih =>
    simp only [leHexDigits, List.cons.injEq] at same
    obtain ⟨low, high⟩ := same
    have lowEq : m % 16 = n % 16 :=
      hexDigit_injective (Nat.mod_lt _ (by decide)) (Nat.mod_lt _ (by decide)) low
    have highEq : m / 16 = n / 16 := by
      apply ih _ _ high
      · rw [pow_succ] at hm
        exact Nat.div_lt_of_lt_mul (by omega)
      · rw [pow_succ] at hn
        exact Nat.div_lt_of_lt_mul (by omega)
    omega

theorem utf8Size_hexDigit (small : n < 16) : (hexDigit n).utf8Size = 1 := by
  have all : ∀ i < 16, (hexDigit i).utf8Size = 1 := by decide
  exact all n small

theorem utf8Size_of_mem_leHexDigits {c : Char}
    (member : c ∈ leHexDigits width n) : c.utf8Size = 1 := by
  induction width generalizing n with
  | zero => cases member
  | succ width ih =>
    rcases List.mem_cons.mp member with rfl | rest
    · exact utf8Size_hexDigit (Nat.mod_lt _ (by decide))
    · exact ih rest

/-- The `width` low hexadecimal digits of a number, most significant first. -/
def hexDigits (width n : Nat) : List Char := (leHexDigits width n).reverse

@[simp] theorem hexDigits_length (width n : Nat) : (hexDigits width n).length = width := by
  simp [hexDigits]

theorem utf8Size_of_mem_hexDigits {c : Char} (member : c ∈ hexDigits width n) : c.utf8Size = 1 :=
  utf8Size_of_mem_leHexDigits (List.mem_reverse.mp member)

theorem hexDigits_injective (hm : m < 16 ^ width) (hn : n < 16 ^ width)
    (same : hexDigits width m = hexDigits width n) : m = n :=
  leHexDigits_injective hm hn (List.reverse_injective same)

/-- The value of a lower-case hexadecimal digit. -/
def hexValue (c : Char) : Nat := if c.isDigit then c.toNat - 48 else c.toNat - 87

/-- The number of hexadecimal digits, the first being the highest. -/
def ofHexDigits (digits : List Char) : Nat := digits.foldl (fun n c => 16 * n + hexValue c) 0

def isLowerHex (c : Char) : Bool := c.isDigit || decide ('a' ≤ c ∧ c ≤ 'f')

theorem hexDigit_of_isLowerHex {c : Char} (digit : isLowerHex c = true) :
    hexValue c < 16 ∧ hexDigit (hexValue c) = c := by
  have bounds : (48 ≤ c.toNat ∧ c.toNat ≤ 57) ∨ (97 ≤ c.toNat ∧ c.toNat ≤ 102) := by
    rw [isLowerHex, Bool.or_eq_true, decide_eq_true_eq] at digit
    exact digit.imp Char.isDigit_iff_toNat.mp id
  have all : ∀ n < 103, (48 ≤ n ∧ n ≤ 57) ∨ (97 ≤ n ∧ n ≤ 102) →
      hexValue (Char.ofNat n) < 16 ∧ hexDigit (hexValue (Char.ofNat n)) = Char.ofNat n := by
    decide
  rw [← Char.ofNat_toNat c]
  exact all c.toNat (by omega) bounds

theorem isLowerHex_of_mem_hexDigits {width n : Nat} {c : Char} (member : c ∈ hexDigits width n) :
    isLowerHex c = true := by
  have all : ∀ i < 16, isLowerHex (hexDigit i) = true := by decide
  rw [hexDigits, List.mem_reverse] at member
  induction width generalizing n with
  | zero => cases member
  | succ width ih =>
    rcases List.mem_cons.mp member with rfl | later
    · exact all _ (Nat.mod_lt _ (by decide))
    · exact ih later

/-- Digits are those of their number. -/
theorem hexDigits_ofHexDigits {digits : List Char} (all : ∀ c ∈ digits, isLowerHex c = true) :
    hexDigits digits.length (ofHexDigits digits) = digits ∧
      ofHexDigits digits < 16 ^ digits.length := by
  induction digits using List.reverseRecOn with
  | nil => exact ⟨rfl, by decide⟩
  | append_singleton first c ih =>
    obtain ⟨small, shown⟩ := hexDigit_of_isLowerHex (all c (by simp))
    obtain ⟨same, bound⟩ := ih fun c member => all c (List.mem_append_left _ member)
    have number : ofHexDigits (first ++ [c]) = 16 * ofHexDigits first + hexValue c := by
      simp [ofHexDigits]
    have high : (16 * ofHexDigits first + hexValue c) / 16 = ofHexDigits first := by omega
    have low : (16 * ofHexDigits first + hexValue c) % 16 = hexValue c := by omega
    rw [number, List.length_append, List.length_singleton, pow_succ]
    refine ⟨?_, by omega⟩
    rw [hexDigits, leHexDigits, high, low, List.reverse_cons, ← hexDigits, same, shown]

theorem ofHexDigits_hexDigits {width n : Nat} (small : n < 16 ^ width) :
    ofHexDigits (hexDigits width n) = n := by
  obtain ⟨same, bound⟩ := hexDigits_ofHexDigits fun c member =>
    @isLowerHex_of_mem_hexDigits width n c member
  rw [hexDigits_length] at same bound
  exact hexDigits_injective bound small same

/-! ## Text -/

/-- The UTF-8 bytes of a string. -/
def utf8 (value : String) : Bytes := value.toUTF8.data.toList

theorem utf8_injective : Function.Injective utf8 := by
  intro left right same
  apply String.toByteArray_inj.mp
  exact ByteArray.ext (Array.toList_inj.mp same)

@[simp] theorem utf8_length (value : String) : (utf8 value).length = value.utf8ByteSize := rfl

theorem utf8_append (left right : String) : utf8 (left ++ right) = utf8 left ++ utf8 right := by
  simp [utf8, String.toUTF8, String.toByteArray_append]

theorem utf8ByteSize_ofList_le (chars : List Char) :
    (String.ofList chars).utf8ByteSize ≤ 4 * chars.length := by
  induction chars with
  | nil => simp
  | cons c rest ih =>
    have split : String.ofList (c :: rest) = String.singleton c ++ String.ofList rest := by
      simp
    have size := c.utf8Size_le_four
    rw [split, String.utf8ByteSize_append, String.utf8ByteSize_singleton, List.length_cons]
    omega

theorem utf8ByteSize_ofList_ascii {chars : List Char} (ascii : ∀ c ∈ chars, c.utf8Size = 1) :
    (String.ofList chars).utf8ByteSize = chars.length := by
  induction chars with
  | nil => simp
  | cons c rest ih =>
    have split : String.ofList (c :: rest) = String.singleton c ++ String.ofList rest := by
      simp
    obtain ⟨one, others⟩ := List.forall_mem_cons.mp ascii
    rw [split, String.utf8ByteSize_append, String.utf8ByteSize_singleton, one, ih others,
      List.length_cons, Nat.add_comm]

/-! ## Self-delimiting encoders -/

universe u v

variable {α : Type u} {β : Type v}

/-- A string that starts with an encoded value determines the value and the
rest, for the values that satisfy `valid`. -/
def SelfDelimitingOn (valid : α → Prop) (encode : α → Bytes) : Prop :=
  ∀ ⦃a b : α⦄, valid a → valid b → ∀ ⦃xs ys : Bytes⦄,
    encode a ++ xs = encode b ++ ys → a = b ∧ xs = ys

/-- Every value can be read back. -/
abbrev SelfDelimiting (encode : α → Bytes) : Prop := SelfDelimitingOn (fun _ => True) encode

namespace SelfDelimitingOn

variable {valid : α → Prop} {encode : α → Bytes}

theorem read (delimited : SelfDelimiting encode) {a b : α} {xs ys : Bytes}
    (same : encode a ++ xs = encode b ++ ys) : a = b ∧ xs = ys :=
  delimited trivial trivial same

theorem injective (delimited : SelfDelimitingOn valid encode) {a b : α} (ha : valid a)
    (hb : valid b) (same : encode a = encode b) : a = b := by
  have padded : encode a ++ [] = encode b ++ [] := by rw [same]
  exact (delimited ha hb padded).1

theorem of_fixed_length (length : ∀ a, valid a → (encode a).length = width)
    (injective : ∀ a b, valid a → valid b → encode a = encode b → a = b) :
    SelfDelimitingOn valid encode := by
  intro a b ha hb xs ys same
  obtain ⟨heads, tails⟩ := List.append_inj same (by rw [length a ha, length b hb])
  exact ⟨injective a b ha hb heads, tails⟩

/-- Encode through a map that loses nothing. -/
theorem comap (delimited : SelfDelimitingOn valid encode) {other : β → Prop} (f : β → α)
    (maps : ∀ b, other b → valid (f b))
    (injective : ∀ b c, other b → other c → f b = f c → b = c) :
    SelfDelimitingOn other (fun b => encode (f b)) := by
  intro b c hb hc xs ys same
  obtain ⟨heads, tails⟩ := delimited (maps b hb) (maps c hc) same
  exact ⟨injective b c hb hc heads, tails⟩

/-- Without a count, a sequence is determined by its bytes as soon as no
element has an empty encoding. -/
theorem flatMap_injective (delimited : SelfDelimiting encode) (nonempty : ∀ a, encode a ≠ []) :
    ∀ {as bs : List α}, as.flatMap encode = bs.flatMap encode → as = bs
  | [], [], _ => rfl
  | [], b :: bs, same => by
    have empty : encode b ++ bs.flatMap encode = [] := by simpa using same.symm
    exact absurd (List.append_eq_nil_iff.mp empty).1 (nonempty b)
  | a :: as, [], same => by
    have empty : encode a ++ as.flatMap encode = [] := by simpa using same
    exact absurd (List.append_eq_nil_iff.mp empty).1 (nonempty a)
  | a :: as, b :: bs, same => by
    simp only [List.flatMap_cons] at same
    obtain ⟨heads, rest⟩ := read delimited same
    rw [heads, flatMap_injective delimited nonempty rest]

end SelfDelimitingOn

theorem selfDelimiting_leBytes (width : Nat) :
    SelfDelimitingOn (fun n => n < 256 ^ width) (leBytes width) :=
  SelfDelimitingOn.of_fixed_length (fun n _ => leBytes_length width n)
    (fun _ _ hm hn same => leBytes_injective hm hn same)

/-- A value that may be missing, after one of two tags of one length. -/
theorem SelfDelimitingOn.option {valid : α → Prop} {encode : α → Bytes}
    {write : Option α → Bytes} {absent present : Bytes} (delimited : SelfDelimitingOn valid encode)
    (apart : absent ≠ present) (length : absent.length = present.length)
    (none : write none = absent) (some : ∀ a, write (some a) = present ++ encode a) :
    SelfDelimitingOn (fun value => ∀ a ∈ value, valid a) write := by
  rintro (_ | left) (_ | right) hl hr xs ys same
  · rw [none] at same
    exact ⟨rfl, List.append_cancel_left same⟩
  · rw [none, some, List.append_assoc] at same
    exact absurd (List.append_inj_left same length) apart
  · rw [none, some, List.append_assoc] at same
    exact absurd (List.append_inj_left same length.symm).symm apart
  · rw [some, some, List.append_assoc, List.append_assoc] at same
    obtain ⟨value, rest⟩ := delimited (hl left rfl) (hr right rfl) (List.append_cancel_left same)
    exact ⟨congrArg Option.some value, rest⟩

/-! ## Encodings that leave something out -/

/-- Related values have the same bytes, and of the values that satisfy `valid` only these: what
they differ in, the order of a list for example, is left out. -/
structure ExactOn (valid : α → Prop) (same : α → α → Prop) (encode : α → Bytes) : Prop where
  agree : ∀ {a b}, same a b → encode a = encode b
  read : ∀ {a b} {xs ys : Bytes}, valid a → valid b → encode a ++ xs = encode b ++ ys →
    same a b ∧ xs = ys

theorem SelfDelimitingOn.exact_ {valid : α → Prop} {encode : α → Bytes}
    (delimited : SelfDelimitingOn valid encode) : ExactOn valid (· = ·) encode where
  agree := congrArg encode
  read left right bytes := delimited left right bytes

namespace ExactOn

variable {valid : α → Prop} {same : α → α → Prop} {encode : α → Bytes} {other : β → Prop}
  {equal : β → β → Prop} {next : β → Bytes}

theorem iff (exact_ : ExactOn valid same encode) {a b : α} (left : valid a) (right : valid b) :
    encode a = encode b ↔ same a b :=
  ⟨fun bytes => (exact_.read left right (congrArg (· ++ []) bytes)).1, exact_.agree⟩

theorem comap (exact_ : ExactOn valid same encode) (f : β → α)
    (writes : ∀ b, next b = encode (f b)) (maps : ∀ b, other b → valid (f b))
    (means : ∀ a b, equal a b ↔ same (f a) (f b)) : ExactOn other equal next where
  agree related := by
    rw [writes, writes]
    exact exact_.agree ((means _ _).mp related)
  read left right bytes := by
    rw [writes, writes] at bytes
    exact (exact_.read (maps _ left) (maps _ right) bytes).imp_left (means _ _).mpr

theorem pair (first : ExactOn valid same encode) (last : ExactOn other equal next) :
    ExactOn (fun p : α × β => valid p.1 ∧ other p.2) (fun p q => same p.1 q.1 ∧ equal p.2 q.2)
      fun p => encode p.1 ++ next p.2 where
  agree related := by rw [first.agree related.1, last.agree related.2]
  read left right bytes := by
    rw [List.append_assoc, List.append_assoc] at bytes
    obtain ⟨heads, bytes⟩ := first.read left.1 right.1 bytes
    obtain ⟨tails, bytes⟩ := last.read left.2 right.2 bytes
    exact ⟨⟨heads, tails⟩, bytes⟩

/-- A constant in front changes nothing. -/
theorem tagged (tag : Bytes) (exact_ : ExactOn valid same encode) :
    ExactOn valid same fun a => tag ++ encode a where
  agree related := congrArg (tag ++ ·) (exact_.agree related)
  read left right bytes := by
    rw [List.append_assoc, List.append_assoc] at bytes
    exact exact_.read left right (List.append_cancel_left bytes)

theorem flatMap (exact_ : ExactOn valid same encode) : ∀ {as bs : List α}, (∀ a ∈ as, valid a) →
    (∀ b ∈ bs, valid b) → as.length = bs.length → ∀ {xs ys : Bytes},
      as.flatMap encode ++ xs = bs.flatMap encode ++ ys → List.Forall₂ same as bs ∧ xs = ys
  | [], [], _, _, _, _, _, bytes => ⟨.nil, bytes⟩
  | a :: as, b :: bs, left, right, length, xs, ys, bytes => by
    simp only [List.flatMap_cons, List.append_assoc] at bytes
    obtain ⟨first, left⟩ := List.forall_mem_cons.mp left
    obtain ⟨second, right⟩ := List.forall_mem_cons.mp right
    obtain ⟨heads, bytes⟩ := exact_.read first second bytes
    obtain ⟨tails, bytes⟩ := flatMap exact_ left right (Nat.succ.inj length) bytes
    exact ⟨.cons heads tails, bytes⟩

/-- A list after a count. -/
theorem list (exact_ : ExactOn valid same encode) {few : Nat → Prop} {count : Nat → Bytes}
    (counts : SelfDelimitingOn few count) :
    ExactOn (fun as => few as.length ∧ ∀ a ∈ as, valid a) (List.Forall₂ same)
      fun as => count as.length ++ as.flatMap encode where
  agree related := by
    rw [related.length_eq]
    congr 1
    induction related with
    | nil => rfl
    | cons first _ ih => rw [List.flatMap_cons, List.flatMap_cons, exact_.agree first, ih]
  read left right bytes := by
    rw [List.append_assoc, List.append_assoc] at bytes
    obtain ⟨length, bytes⟩ := counts left.1 right.1 bytes
    exact exact_.flatMap left.2 right.2 length bytes

/-- A list that is sorted first is exact up to its order. -/
theorem sorted [LinearOrder α] {all : List α → Prop} {write : List α → Bytes}
    (exact_ : ExactOn all (· = ·) write)
    (keeps : ∀ as, all as → all (as.insertionSort (· ≤ ·))) :
    ExactOn all List.Perm fun as => write (as.insertionSort (· ≤ ·)) :=
  exact_.comap (fun as => as.insertionSort (· ≤ ·)) (fun _ => rfl) keeps fun as bs => by
    constructor
    · intro perm
      refine List.Perm.eq_of_pairwise' (r := (· ≤ ·)) (List.pairwise_insertionSort _ as)
        (List.pairwise_insertionSort _ bs) ?_
      exact (as.perm_insertionSort _).trans (perm.trans (bs.perm_insertionSort _).symm)
    · intro same
      exact (as.perm_insertionSort _).symm.trans (same ▸ bs.perm_insertionSort _)

end ExactOn

/-! ## Length frames -/

/-- A 64-bit length; a longer sequence is stored with the largest length. -/
def lengthBytes (length : Nat) : Bytes := leBytes 8 (min length (2 ^ 64 - 1))

theorem selfDelimiting_lengthBytes :
    SelfDelimitingOn (fun n => n < 2 ^ 64) lengthBytes := by
  refine SelfDelimitingOn.comap (selfDelimiting_leBytes 8) (fun n => min n (2 ^ 64 - 1)) ?_ ?_
  · intro n hn
    have : min n (2 ^ 64 - 1) ≤ n := Nat.min_le_left _ _
    have width : (256 : Nat) ^ 8 = 2 ^ 64 := by decide
    omega
  · intro m n hm hn same
    have width : min m (2 ^ 64 - 1) = min n (2 ^ 64 - 1) := same
    omega

/-- Bytes after their own length. -/
def framed (value : Bytes) : Bytes := lengthBytes value.length ++ value

theorem selfDelimiting_framed :
    SelfDelimitingOn (fun value => value.length < 2 ^ 64) framed := by
  intro a b ha hb xs ys same
  simp only [framed, List.append_assoc] at same
  obtain ⟨length, rest⟩ := selfDelimiting_lengthBytes ha hb same
  exact List.append_inj rest length

/-- Sequences of one known length are read back element by element. -/
theorem SelfDelimitingOn.flatMap {valid : α → Prop} {encode : α → Bytes}
    (delimited : SelfDelimitingOn valid encode) {as bs : List α} (left : ∀ a ∈ as, valid a)
    (right : ∀ b ∈ bs, valid b) (length : as.length = bs.length) {xs ys : Bytes}
    (same : as.flatMap encode ++ xs = bs.flatMap encode ++ ys) : as = bs ∧ xs = ys := by
  rw [← List.forall₂_eq_eq_eq]
  exact delimited.exact_.flatMap left right length same

/-- A sequence after its own length. -/
def counted (encode : α → Bytes) (values : List α) : Bytes :=
  lengthBytes values.length ++ values.flatMap encode

theorem selfDelimiting_counted {valid : α → Prop} {encode : α → Bytes}
    (delimited : SelfDelimitingOn valid encode) :
    SelfDelimitingOn (fun values => values.length < 2 ^ 64 ∧ ∀ a ∈ values, valid a)
      (counted encode) := by
  intro as bs ha hb xs ys same
  simp only [counted, List.append_assoc] at same
  obtain ⟨length, rest⟩ := selfDelimiting_lengthBytes ha.1 hb.1 same
  exact delimited.flatMap ha.2 hb.2 length rest

end Foundation

/-!
## Text predicates of the Rust standard library

Control characters, white space, trimming and splitting follow the documented
Unicode properties (`Cc` and `White_Space`). Lower-casing is given by tables of
the Unicode database, so it is a parameter: nothing here depends on which
mapping it is.
-/

namespace Foundation

/-- `char::is_control`: the general category `Cc`. -/
def isControl (c : Char) : Bool :=
  c.toNat ≤ 0x1F || (0x7F ≤ c.toNat && c.toNat ≤ 0x9F)

/-- `char::is_whitespace`: the property `White_Space`. -/
def isWhitespace (c : Char) : Bool :=
  (0x09 ≤ c.toNat && c.toNat ≤ 0x0D) || c.toNat == 0x20 || c.toNat == 0x85 || c.toNat == 0xA0 ||
    c.toNat == 0x1680 || (0x2000 ≤ c.toNat && c.toNat ≤ 0x200A) || c.toNat == 0x2028 ||
    c.toNat == 0x2029 || c.toNat == 0x202F || c.toNat == 0x205F || c.toNat == 0x3000

/-- `str::trim`. -/
def trim (value : String) : String :=
  String.ofList (((value.toList.dropWhile isWhitespace).reverse.dropWhile isWhitespace).reverse)

/-- `str::split_whitespace`: the non-empty pieces between white space. -/
def splitWhitespace (value : String) : List String :=
  ((value.toList.splitOnP isWhitespace).filter (fun piece => !piece.isEmpty)).map String.ofList

/-- The Unicode lower-casing of a text, `str::to_lowercase`. -/
class CaseMapping where
  toLowercase : String → String

/-- `str::strip_prefix`. -/
def stripPrefix (first value : String) : Option String :=
  if first.toList <+: value.toList then
    some (String.ofList (value.toList.drop first.toList.length))
  else none

end Foundation
