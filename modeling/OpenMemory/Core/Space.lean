import OpenMemory.Foundation.ByteCodec

/-!
# Identifiers and roles of memory spaces

Every identifier of the core crate is a UUID of version 7, printed as
lower-case hexadecimal in hyphenated groups. The identifiers differ only in
what they name, so there is one type with the kind as a parameter: an
identifier of one kind is never taken for one of another. Identifiers are
ordered as their sixteen bytes are.
-/

namespace OpenMemory

open Foundation

/-! ## UUIDs -/

/-- A 128-bit UUID, read as a big-endian number. -/
structure Uuid where
  value : Nat
  isLt : value < 2 ^ 128
  deriving DecidableEq

namespace Uuid

/-- The version nibble: the upper half of the seventh byte. -/
def getVersionNum (uuid : Uuid) : Nat := uuid.value / 2 ^ 76 % 16

/-- The hyphenated groups of 8, 4, 4, 4 and 12 digits. -/
def hyphenatedDigits (digits : List Char) : List Char :=
  digits.take 8 ++ '-' :: ((digits.drop 8).take 4 ++ '-' :: ((digits.drop 12).take 4 ++
    '-' :: ((digits.drop 16).take 4 ++ '-' :: digits.drop 20)))

/-- `Uuid::hyphenated`: the canonical lower-case text. -/
def hyphenated (uuid : Uuid) : String :=
  String.ofList (hyphenatedDigits (hexDigits 32 uuid.value))

theorem hyphenatedDigits_length {digits : List Char} (length : digits.length = 32) :
    (hyphenatedDigits digits).length = 36 := by
  simp [hyphenatedDigits, length]

theorem hyphenatedDigits_injective {left right : List Char} (hl : left.length = 32)
    (hr : right.length = 32) (same : hyphenatedDigits left = hyphenatedDigits right) :
    left = right := by
  unfold hyphenatedDigits at same
  obtain ⟨first, rest⟩ := List.append_inj same (by simp [hl, hr])
  obtain ⟨second, rest⟩ := List.append_inj (List.cons.inj rest).2 (by simp [hl, hr])
  obtain ⟨third, rest⟩ := List.append_inj (List.cons.inj rest).2 (by simp [hl, hr])
  obtain ⟨fourth, rest⟩ := List.append_inj (List.cons.inj rest).2 (by simp [hl, hr])
  have fifth := (List.cons.inj rest).2
  have assemble : ∀ digits : List Char, digits = digits.take 8 ++ ((digits.drop 8).take 4 ++
      ((digits.drop 12).take 4 ++ ((digits.drop 16).take 4 ++ digits.drop 20))) := by
    intro digits
    have join : ∀ start count : Nat,
        (digits.drop start).take count ++ digits.drop (start + count) = digits.drop start := by
      intro start count
      rw [← List.drop_drop, List.take_append_drop]
    rw [join 16 4, join 12 4, join 8 4, List.take_append_drop]
  rw [assemble left, assemble right, first, second, third, fourth, fifth]

theorem hyphenated_injective : Function.Injective hyphenated := by
  intro left right same
  have digits : hexDigits 32 left.value = hexDigits 32 right.value :=
    hyphenatedDigits_injective (by simp) (by simp) (String.ofList_injective same)
  have width : (2 : Nat) ^ 128 = 16 ^ 32 := by decide
  have values := hexDigits_injective (width ▸ left.isLt) (width ▸ right.isLt) digits
  cases left
  cases right
  cases values
  rfl

theorem mem_hyphenatedDigits {digits : List Char} {c : Char}
    (member : c ∈ hyphenatedDigits digits) : c = '-' ∨ c ∈ digits := by
  simp only [hyphenatedDigits, List.mem_append, List.mem_cons] at member
  rcases member with front | rfl | front | rfl | front | rfl | front | rfl | back
  · exact .inr (List.mem_of_mem_take front)
  · exact .inl rfl
  · exact .inr (List.mem_of_mem_drop (List.mem_of_mem_take front))
  · exact .inl rfl
  · exact .inr (List.mem_of_mem_drop (List.mem_of_mem_take front))
  · exact .inl rfl
  · exact .inr (List.mem_of_mem_drop (List.mem_of_mem_take front))
  · exact .inl rfl
  · exact .inr (List.mem_of_mem_drop back)

/-- Every character is a hyphen or a hexadecimal digit, which take one byte. -/
theorem hyphenated_utf8ByteSize (uuid : Uuid) : uuid.hyphenated.utf8ByteSize = 36 := by
  have ascii : ∀ c ∈ hyphenatedDigits (hexDigits 32 uuid.value), c.utf8Size = 1 := by
    intro c member
    rcases mem_hyphenatedDigits member with rfl | digit
    · decide
    · exact utf8Size_of_mem_hexDigits digit
  rw [hyphenated, utf8ByteSize_ofList_ascii ascii, hyphenatedDigits_length (by simp)]

theorem hyphenated_size (uuid : Uuid) : uuid.hyphenated.utf8ByteSize ≤ 144 := by
  have bound := utf8ByteSize_ofList_le (hyphenatedDigits (hexDigits 32 uuid.value))
  rw [hyphenatedDigits_length (by simp)] at bound
  exact bound

end Uuid

/-! ## Typed identifiers -/

/-- What an identifier names. -/
inductive IdKind where
  | space
  | project
  | changeset
  | revision
  | mergeJob
  | snapshot
  | decisionEvent

/-- A canonical UUIDv7 identifier of one kind. -/
structure UuidV7Id (kind : IdKind) where
  uuid : Uuid
  version7 : uuid.getVersionNum = 7
  deriving DecidableEq

abbrev SpaceId := UuidV7Id .space
abbrev RevisionId := UuidV7Id .revision
abbrev SnapshotId := UuidV7Id .snapshot
abbrev DecisionEventId := UuidV7Id .decisionEvent

namespace UuidV7Id

variable {kind : IdKind}

theorem value_injective :
    Function.Injective (fun id : UuidV7Id kind => id.uuid.value) := by
  rintro ⟨⟨left, _⟩, _⟩ ⟨⟨right, _⟩, _⟩ same
  simp only at same
  subst same
  rfl

instance : LinearOrder (UuidV7Id kind) :=
  LinearOrder.lift' (fun id => id.uuid.value) value_injective

/-- `Display`: the hyphenated text of the UUID. -/
def toText (id : UuidV7Id kind) : String := id.uuid.hyphenated

theorem toText_injective : Function.Injective (toText : UuidV7Id kind → String) := by
  intro left right same
  have uuids := Uuid.hyphenated_injective same
  cases left
  cases right
  cases uuids
  rfl

theorem toText_utf8ByteSize (id : UuidV7Id kind) : id.toText.utf8ByteSize = 36 :=
  id.uuid.hyphenated_utf8ByteSize

theorem toText_size (id : UuidV7Id kind) : id.toText.utf8ByteSize < 2 ^ 64 := by
  have bound := id.uuid.hyphenated_size
  unfold toText
  omega

end UuidV7Id

/-! ## Roles -/

inductive SpaceRole where
  | reader
  | contributor
  | reviewer
  | maintainer
  deriving DecidableEq

namespace SpaceRole

/-- The discriminant of the variant, as `role as u16`. -/
def toNat : SpaceRole → Nat
  | reader => 0
  | contributor => 1
  | reviewer => 2
  | maintainer => 3

/-- Whether the role may sign identity decisions. -/
def canReview : SpaceRole → Bool
  | reviewer | maintainer => true
  | reader | contributor => false

end SpaceRole

/-! ## Actors -/

inductive ActorKind where
  | human
  | agent
  | system
  deriving DecidableEq

end OpenMemory
