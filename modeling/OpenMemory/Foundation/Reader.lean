import OpenMemory.Foundation.Lines

/-!
# Readers of byte strings

A reader takes what it reads from the front of the bytes, or fails. That it reads an
encoding of a value means that it takes exactly these bytes, whatever stands behind
them; encodings that are read one after another may be written one after another.
-/

namespace Foundation

variable {ε α β : Type}

abbrev Reader (ε α : Type) := StateT Bytes (Except ε) α

/-- The reader takes the encoding and yields the value. -/
def Reads (reader : Reader ε α) (encoded : Bytes) (value : α) : Prop :=
  ∀ rest, reader.run (encoded ++ rest) = .ok (value, rest)

/-- The number of which these are the bytes, least significant first. -/
def ofLeBytes : Bytes → Nat
  | [] => 0
  | b :: rest => b.toNat + 256 * ofLeBytes rest

/-- `read_exact` into a buffer of the given size. -/
def takeBytes (count : Nat) (onShort : ε) : Reader ε Bytes := fun bytes =>
  if bytes.length < count then .error onShort else .ok (bytes.take count, bytes.drop count)

/-- One reader after the other, each told its position. -/
def readEach (reader : Nat → Reader ε α) : Nat → Nat → Reader ε (List α)
  | _, 0 => pure []
  | position, count + 1 => do
      let value ← reader position
      let rest ← readEach reader (position + 1) count
      return value :: rest

theorem ofLeBytes_leBytes {width n : Nat} (small : n < 256 ^ width) :
    ofLeBytes (leBytes width n) = n := by
  induction width generalizing n with
  | zero =>
    rw [pow_zero] at small
    rw [leBytes, ofLeBytes]
    omega
  | succ width ih =>
    rw [pow_succ] at small
    rw [leBytes, ofLeBytes, ih (Nat.div_lt_of_lt_mul (by omega)), UInt8.toNat_ofNat']
    omega

variable {encode : α → Bytes} {onShort : ε} {reader : Nat → Reader ε α} {values : List α}
  {count : Nat} {bytes rest : Bytes}

namespace Reads

variable {first : Reader ε α} {next : α → Reader ε β} {encoded more : Bytes} {value : α}
  {result : β}

theorem pure : Reads (Pure.pure value : Reader ε α) [] value := fun _ => rfl

theorem bind (reads : Reads first encoded value) (then_ : Reads (next value) more result) :
    Reads (first >>= next) (encoded ++ more) result := by
  intro rest
  rw [StateT.run_bind, List.append_assoc, reads]
  exact then_ rest

theorem last (reads : Reads first encoded value) (then_ : Reads (next value) [] result) :
    Reads (first >>= next) encoded result := by
  have both := reads.bind then_
  rwa [List.append_nil] at both

/-- A reader that ends with a result that is made from what it has read. -/
theorem map (reads : Reads first encoded value) {f : α → β} :
    Reads (do let a ← first; return f a) encoded (f value) :=
  reads.last pure

theorem takeBytes : Reads (takeBytes encoded.length onShort) encoded encoded := by
  intro rest
  change (if _ then _ else _) = _
  rw [if_neg (by rw [List.length_append]; omega), List.take_left, List.drop_left]

theorem each (reads : ∀ position, ∀ value ∈ values, Reads (reader position) (encode value) value)
    (position : Nat) :
    Reads (readEach reader position values.length) (values.flatMap encode) values := by
  induction values generalizing position with
  | nil => exact pure
  | cons value rest ih =>
    rw [List.flatMap_cons]
    refine (reads position value List.mem_cons_self).bind ?_
    exact (ih (fun position value member =>
      reads position value (List.mem_cons_of_mem _ member)) (position + 1)).map

end Reads

/-! ## Encodings cut short -/

/-- The reader refuses the encoding where it is cut short. -/
def Refuses (refusal : ε → Prop) (reader : Reader ε α) (encoded : Bytes) : Prop :=
  ∀ part, part <+: encoded → part ≠ encoded → ∃ error,
    reader.run part = .error error ∧ refusal error

namespace Refuses

variable {refusal : ε → Prop} {first : Reader ε α} {next : α → Reader ε β} {encoded more : Bytes}
  {value : α}

theorem nil {reader : Reader ε α} : Refuses refusal reader [] :=
  fun _ cut short => absurd (List.prefix_nil.mp cut) short

theorem bind (refuses : Refuses refusal first encoded) (reads : Reads first encoded value)
    (then_ : Refuses refusal (next value) more) :
    Refuses refusal (first >>= next) (encoded ++ more) := by
  intro part cut short
  rw [StateT.run_bind]
  rcases Nat.lt_or_ge part.length encoded.length with inside | beyond
  · have within : part <+: encoded :=
      List.prefix_of_prefix_length_le cut (List.prefix_append _ _) inside.le
    obtain ⟨error, fails, refused⟩ := refuses part within fun same => by
      rw [same] at inside
      exact lt_irrefl _ inside
    exact ⟨error, by rw [fails]; rfl, refused⟩
  · obtain ⟨rest, rfl⟩ := List.prefix_of_prefix_length_le (List.prefix_append encoded more) cut beyond
    obtain ⟨error, fails, refused⟩ := then_ rest ((List.prefix_append_right_inj encoded).mp cut)
      fun same => short (by rw [same])
    exact ⟨error, by rw [reads]; exact fails, refused⟩

theorem last (refuses : Refuses refusal first encoded) (reads : Reads first encoded value) :
    Refuses refusal (first >>= next) encoded := by
  have both := refuses.bind reads (nil : Refuses refusal (next value) [])
  rwa [List.append_nil] at both

theorem map (refuses : Refuses refusal first encoded) (reads : Reads first encoded value)
    {f : α → β} : Refuses refusal (do let a ← first; return f a) encoded :=
  refuses.last reads

theorem takeBytes (refused : refusal onShort)
    (length : encoded.length = count) : Refuses refusal (takeBytes count onShort) encoded := by
  intro part cut short
  have less : part.length < count := by
    rw [← length]
    exact lt_of_le_of_ne cut.length_le fun same => short (cut.eq_of_length same)
  exact ⟨onShort, if_pos less, refused⟩

theorem each (reads : ∀ position, ∀ value ∈ values, Reads (reader position) (encode value) value)
    (refuses : ∀ position, ∀ value ∈ values, Refuses refusal (reader position) (encode value))
    (position : Nat) :
    Refuses refusal (readEach reader position values.length) (values.flatMap encode) := by
  induction values generalizing position with
  | nil => exact nil
  | cons value rest ih =>
    have later : ∀ position, ∀ value ∈ rest, Reads (reader position) (encode value) value :=
      fun position value member => reads position value (List.mem_cons_of_mem _ member)
    rw [List.flatMap_cons]
    refine (refuses position value List.mem_cons_self).bind
      (reads position value List.mem_cons_self) ?_
    exact (ih later (fun position value member =>
      refuses position value (List.mem_cons_of_mem _ member)) (position + 1)).map
        (Reads.each later (position + 1))

end Refuses

/-! ## What was read -/

theorem takeBytes_eq_ok {taken : Bytes}
    (ran : (takeBytes count onShort).run bytes = .ok (taken, rest)) :
    bytes = taken ++ rest ∧ taken.length = count := by
  change (if _ then _ else _) = _ at ran
  split at ran
  · cases ran
  · rename_i enough
    cases ran
    exact ⟨(List.take_append_drop _ _).symm, by rw [List.length_take]; omega⟩

theorem leBytes_ofLeBytes (bytes : Bytes) : leBytes bytes.length (ofLeBytes bytes) = bytes := by
  induction bytes with
  | nil => rfl
  | cons b rest ih =>
    have low : UInt8.ofNat (b.toNat + 256 * ofLeBytes rest) = b := by
      apply UInt8.toNat_inj.mp
      rw [UInt8.toNat_ofNat']
      have small := b.toNat_lt
      omega
    have high : (b.toNat + 256 * ofLeBytes rest) / 256 = ofLeBytes rest := by
      have small := b.toNat_lt
      omega
    rw [List.length_cons, ofLeBytes, leBytes, low, high, ih]

theorem ofLeBytes_lt (bytes : Bytes) : ofLeBytes bytes < 256 ^ bytes.length := by
  induction bytes with
  | nil => exact Nat.one_pos
  | cons b rest ih =>
    have small := b.toNat_lt
    rw [ofLeBytes, List.length_cons, pow_succ]
    omega

theorem run_bind_eq_ok {first : Reader ε α} {next : α → Reader ε β}
    {result : β × Bytes} : (first >>= next).run bytes = .ok result ↔
      ∃ value rest, first.run bytes = .ok (value, rest) ∧ (next value).run rest = .ok result := by
  rw [StateT.run_bind]
  constructor
  · intro ran
    obtain ⟨⟨value, rest⟩, ran, then_⟩ := bind_eq_ok.mp ran
    exact ⟨value, rest, ran, then_⟩
  · rintro ⟨value, rest, ran, then_⟩
    exact bind_eq_ok.mpr ⟨(value, rest), ran, then_⟩

/-- What one reader after the other has read stood there one after the other. -/
theorem written_of_readEach (written : ∀ position bytes value rest,
      (reader position).run bytes = .ok (value, rest) → bytes = encode value ++ rest)
    {position : Nat} (ran : (readEach reader position count).run bytes = .ok (values, rest)) :
    bytes = values.flatMap encode ++ rest := by
  induction count generalizing position bytes values with
  | zero =>
    cases ran
    rfl
  | succ count ih =>
    rw [readEach] at ran
    obtain ⟨value, middle, first, ran⟩ := run_bind_eq_ok.mp ran
    obtain ⟨others, last, ran, finished⟩ := run_bind_eq_ok.mp ran
    cases finished
    rw [written position bytes value middle first, ih ran, List.flatMap_cons, List.append_assoc]

/-- What holds of everything that one of the readers reads holds of all that is read. -/
theorem forall_of_readEach {holds : α → Prop} (reads : ∀ position bytes value rest,
      (reader position).run bytes = .ok (value, rest) → holds value) {position : Nat}
    (ran : (readEach reader position count).run bytes = .ok (values, rest)) :
    values.length = count ∧ ∀ value ∈ values, holds value := by
  induction count generalizing position bytes values with
  | zero =>
    cases ran
    exact ⟨rfl, fun value member => by cases member⟩
  | succ count ih =>
    rw [readEach] at ran
    obtain ⟨value, middle, first, ran⟩ := run_bind_eq_ok.mp ran
    obtain ⟨others, last, ran, finished⟩ := run_bind_eq_ok.mp ran
    cases finished
    obtain ⟨length, all⟩ := ih ran
    refine ⟨congrArg (· + 1) length, fun other member => ?_⟩
    rcases List.mem_cons.mp member with rfl | member
    · exact reads position bytes _ middle first
    · exact all other member

end Foundation
