import OpenMemory.Core.Space

/-!
# Canonical hashing

A canonical hash is blake3 over a byte string that starts with a fixed tag and
a domain, and continues with length-framed fields. The hash function is not
part of the repository, so it is a parameter (`Blake3`): any function from byte
strings to 32 bytes. What the program relies on is that the function does not
collide on the byte strings it is given; that is the predicate `CollisionFree`
on a set of byte strings, and never a property of all byte strings at once.

The hasher absorbs bytes and is read once, so its state is the byte string
absorbed so far. The encoders of this module are the fields it can absorb.
-/

namespace OpenMemory.Merge

open Foundation

/-! ## Digests -/

/-- Thirty-two bytes, read as a big-endian number. -/
structure Digest where
  value : Nat
  isLt : value < 256 ^ 32
  deriving DecidableEq

namespace Digest

theorem value_injective : Function.Injective Digest.value := by
  rintro ⟨left, _⟩ ⟨right, _⟩ same
  simp only at same
  subst same
  rfl

instance : LinearOrder Digest := LinearOrder.lift' Digest.value value_injective

def asBytes (digest : Digest) : Bytes := beBytes 32 digest.value

@[simp] theorem asBytes_length (digest : Digest) : digest.asBytes.length = 32 :=
  beBytes_length 32 digest.value

theorem asBytes_injective : Function.Injective asBytes := by
  intro left right same
  exact value_injective (beBytes_injective left.isLt right.isLt same)

/-- `Display`: 64 lower-case hexadecimal characters. -/
def toText (digest : Digest) : String := String.ofList (hexDigits 64 digest.value)

theorem toText_injective : Function.Injective toText := by
  intro left right same
  have width : (256 : Nat) ^ 32 = 16 ^ 64 := by decide
  have digits := String.ofList_injective same
  exact value_injective (hexDigits_injective (width ▸ left.isLt) (width ▸ right.isLt) digits)

end Digest

/-- What a hash is a hash of. -/
inductive HashKind where
  | semantic
  | snapshot
  | packet
  | candidate
  | receipt
  | actionStream
  | predictedResult
  | plan

/-- A digest that cannot be taken for one of another kind. -/
structure TypedHash (kind : HashKind) where
  digest : Digest
  deriving DecidableEq

abbrev SemanticHash := TypedHash .semantic
abbrev SnapshotHash := TypedHash .snapshot
abbrev PacketHash := TypedHash .packet
abbrev CandidateHash := TypedHash .candidate
abbrev ReceiptHash := TypedHash .receipt
abbrev ActionStreamHash := TypedHash .actionStream
abbrev PredictedResultHash := TypedHash .predictedResult
abbrev PlanHash := TypedHash .plan

namespace TypedHash

variable {kind : HashKind}

theorem digest_injective : Function.Injective (TypedHash.digest : TypedHash kind → Digest) := by
  rintro ⟨left⟩ ⟨right⟩ same
  simp only at same
  subst same
  rfl

instance : LinearOrder (TypedHash kind) := LinearOrder.lift' TypedHash.digest digest_injective

end TypedHash

/-! ## The hash function -/

/-- The blake3 crate: a function from byte strings to digests. -/
class Blake3 where
  hash : Bytes → Digest

/-- The hash function tells the byte strings of `strings` apart. -/
def CollisionFree [Blake3] (strings : Set Bytes) : Prop := Set.InjOn Blake3.hash strings

theorem CollisionFree.mono [Blake3] {strings more : Set Bytes} (subset : strings ⊆ more)
    (free : CollisionFree more) : CollisionFree strings := Set.InjOn.mono subset free

/-! ## Fields -/

/-- Text whose length fits the 64-bit frame. -/
def ShortText (value : String) : Prop := value.utf8ByteSize < 2 ^ 64

theorem ShortText.of_le {value : String} {bound : Nat} (size : value.utf8ByteSize ≤ bound)
    (small : bound < 2 ^ 64) : ShortText value := Nat.lt_of_le_of_lt size small

namespace Canonical

def text (value : String) : Bytes := framed (utf8 value)

def bool (value : Bool) : Bytes := [if value then 1 else 0]

def u16 (value : Nat) : Bytes := leBytes 2 value

def u64 (value : Nat) : Bytes := leBytes 8 value

def optionalText (value : Option String) : Bytes :=
  bool value.isSome ++ (match value with
    | some value => text value
    | none => [])

/-- An identifier is absorbed as its text. -/
def idText {kind : IdKind} (value : UuidV7Id kind) : Bytes := text value.toText

def hash {kind : HashKind} (value : TypedHash kind) : Bytes := framed value.digest.asBytes

theorem selfDelimiting_text : SelfDelimitingOn ShortText text :=
  selfDelimiting_framed.comap utf8 (fun _ short => short) (fun _ _ _ _ same => utf8_injective same)

theorem selfDelimiting_bool : SelfDelimiting bool := by
  have length : ∀ value, True → (bool value).length = 1 := fun _ _ => rfl
  refine SelfDelimitingOn.of_fixed_length length ?_
  decide

theorem selfDelimiting_u16 : SelfDelimitingOn (fun n => n < 2 ^ 16) u16 :=
  selfDelimiting_leBytes 2

theorem selfDelimiting_u64 : SelfDelimitingOn (fun n => n < 2 ^ 64) u64 :=
  selfDelimiting_leBytes 8

theorem selfDelimiting_optionalText :
    SelfDelimitingOn (fun value => ∀ text ∈ value, ShortText text) optionalText :=
  selfDelimiting_text.option (show bool false ≠ bool true by decide) rfl rfl fun _ => rfl

theorem selfDelimiting_idText {kind : IdKind} : SelfDelimiting (idText : UuidV7Id kind → Bytes) :=
  selfDelimiting_text.comap UuidV7Id.toText (fun value _ => value.toText_size)
    (fun _ _ _ _ same => UuidV7Id.toText_injective same)

theorem selfDelimiting_hash {kind : HashKind} : SelfDelimiting (hash : TypedHash kind → Bytes) := by
  refine selfDelimiting_framed.comap (fun value : TypedHash kind => value.digest.asBytes) ?_ ?_
  · intro value _
    rw [Digest.asBytes_length]
    norm_num
  · intro _ _ _ _ same
    exact TypedHash.digest_injective (Digest.asBytes_injective same)

end Canonical

/-! ## The hasher -/

/-- The byte string absorbed so far. -/
structure CanonicalHasher where
  absorbed : Bytes

namespace CanonicalHasher

/-- A hasher for one domain: the version tag and the domain come first. -/
def new (domain : String) : CanonicalHasher where
  absorbed := Canonical.text "openmemory/canonical/v1" ++ Canonical.text domain

def absorb (hasher : CanonicalHasher) (bytes : Bytes) : CanonicalHasher where
  absorbed := hasher.absorbed ++ bytes

/-- The number of bytes absorbed. -/
def encodedLen (hasher : CanonicalHasher) : Nat := hasher.absorbed.length

/-- Read the hash as one of the given kind. -/
def finish [Blake3] (kind : HashKind) (hasher : CanonicalHasher) : TypedHash kind where
  digest := Blake3.hash hasher.absorbed

@[simp] theorem absorbed_absorb (hasher : CanonicalHasher) (bytes : Bytes) :
    (hasher.absorb bytes).absorbed = hasher.absorbed ++ bytes := rfl

theorem absorb_absorb (hasher : CanonicalHasher) (first last : Bytes) :
    (hasher.absorb first).absorb last = hasher.absorb (first ++ last) := by
  simp [absorb]

end CanonicalHasher

end OpenMemory.Merge
