import OpenMemory.Foundation.Numerals
import OpenMemory.Graph.Operation

/-!
# Texts of identifiers and authorities

Identifiers and authority snapshots are stored and compared as texts. What is printed is read
back. An identifier is read from its printed text only: the library that reads it accepts other
spellings, and the code prints it again to compare. The version of an authority is read by the
parser of integers, which allows a sign and leading zeros, and nothing is compared, so an
authority has several texts (`text_forms_canonical_iff`).
-/

namespace OpenMemory

open Foundation

inductive SpaceTypeError where
  | invalidUuidV7 (kind : IdKind)
  | invalidAuthorityVersion
  | invalidAuthorityDigest

/-! ## Identifiers -/

/-- `Uuid::parse_str`. It reads the hyphenated text of an identifier, and other spellings. -/
class UuidParser where
  parseStr : String → Option Uuid
  parse_hyphenated : ∀ uuid : Uuid, parseStr uuid.hyphenated = some uuid

namespace UuidV7Id

variable [UuidParser] {kind : IdKind}

def fromStr (value : String) : Except SpaceTypeError (UuidV7Id kind) :=
  match UuidParser.parseStr value with
  | none => .error (.invalidUuidV7 kind)
  | some parsed =>
    if accepted : ¬ (parsed.getVersionNum ≠ 7 ∨ parsed.hyphenated ≠ value ∨
        value.toList.any Char.isUpper = true) then
      .ok ⟨parsed, not_not.mp (not_or.mp accepted).1⟩
    else .error (.invalidUuidV7 kind)

omit [UuidParser] in
/-- No letter of the hyphenated text is a capital. -/
theorem not_isUpper_hyphenated (uuid : Uuid) : uuid.hyphenated.toList.any Char.isUpper = false := by
  have lower : ∀ i < 16, (hexDigit i).isUpper = false := by decide
  rw [List.any_eq_false]
  intro c member
  rw [Uuid.hyphenated, String.toList_ofList] at member
  rcases Uuid.mem_hyphenatedDigits member with rfl | digit
  · decide
  · obtain ⟨small, same⟩ := hexDigit_of_isLowerHex (isLowerHex_of_mem_hexDigits digit)
    rw [← same, lower _ small]
    exact Bool.false_ne_true

theorem fromStr_toText (id : UuidV7Id kind) : fromStr id.toText = .ok id := by
  rw [fromStr, toText, UuidParser.parse_hyphenated]
  dsimp only
  rw [dif_pos]
  simp [id.version7, not_isUpper_hyphenated]

theorem toText_of_fromStr {value : String} {id : UuidV7Id kind} (read : fromStr value = .ok id) :
    id.toText = value := by
  rw [fromStr] at read
  split at read
  next => cases read
  next parsed =>
    split at read
    next accepted =>
      obtain rfl := Except.ok.inj read
      exact not_not.mp (not_or.mp (not_or.mp accepted).2).1
    next => cases read

end UuidV7Id

end OpenMemory

namespace OpenMemory.Graph

open Foundation
open Merge (Digest)

/-! ## Authorities -/

namespace AuthoritySnapshot

def new (version : UInt16) (digest : Digest) : Except SpaceTypeError AuthoritySnapshot :=
  if version = 0 then .error .invalidAuthorityVersion else .ok ⟨version, digest⟩

/-- `Display`: the version and the bytes of the digest. -/
def toText (snapshot : AuthoritySnapshot) : String :=
  "v" ++ Nat.repr snapshot.version.toNat ++ ":" ++ snapshot.digest.toText

/-- `split_once` at a colon. -/
def splitOnce : List Char → Option (List Char × List Char)
  | [] => none
  | c :: rest => if c = ':' then some ([], rest) else (splitOnce rest).map (Prod.map (c :: ·) id)

theorem size_of_isLowerHex {digits : List Char} (all : digits.all isLowerHex = true) :
    (String.ofList digits).utf8ByteSize = digits.length := by
  refine utf8ByteSize_ofList_ascii fun c member => ?_
  obtain ⟨small, same⟩ := hexDigit_of_isLowerHex (List.all_eq_true.mp all c member)
  exact same ▸ utf8Size_hexDigit small

/-- The bytes of a text of the right length, read as one number. -/
def readDigest (digits : List Char) : Option Digest :=
  if valid : (String.ofList digits).utf8ByteSize = 64 ∧ digits.all isLowerHex = true then
    some ⟨ofHexDigits digits, by
      obtain ⟨size, all⟩ := valid
      have bound := (hexDigits_ofHexDigits (List.all_eq_true.mp all)).2
      rw [size_of_isLowerHex all] at size
      rw [size] at bound
      exact bound.trans_eq (by decide)⟩
  else none

/-- `strip_prefix` of a letter. -/
def stripPrefix (letter : Char) : List Char → Option (List Char)
  | [] => none
  | c :: rest => if c = letter then some rest else none

def fromStr (value : String) : Except SpaceTypeError AuthoritySnapshot := do
  let (version, digest) ← orRefuse (splitOnce value.toList) .invalidAuthorityDigest
  let version ← orRefuse (stripPrefix 'v' version) .invalidAuthorityDigest
  let version ← (parseUnsigned 65535 (String.ofList version)).mapError
    fun _ => .invalidAuthorityDigest
  refuseIf (version = 0) .invalidAuthorityDigest
  let digest ← orRefuse (readDigest digest) .invalidAuthorityDigest
  new (UInt16.ofNat version) digest

theorem splitOnce_eq_some {text front rest : List Char} :
    splitOnce text = some (front, rest) ↔ text = front ++ ':' :: rest ∧ ':' ∉ front := by
  induction text generalizing front with
  | nil => simp [splitOnce]
  | cons c text ih =>
    rw [splitOnce]
    split
    next colon =>
      subst colon
      cases front with
      | nil => simp
      | cons d front => simp +contextual [eq_comm]
    next other =>
      cases front with
      | nil => simp [other]
      | cons d front =>
        rw [Option.map_eq_some_iff, List.cons_append, List.cons.injEq, List.mem_cons, not_or]
        constructor
        · rintro ⟨⟨first, last⟩, split, same⟩
          obtain ⟨⟨rfl, rfl⟩, rfl⟩ := (by simpa using same : (c = d ∧ first = front) ∧ last = rest)
          exact ⟨⟨rfl, (ih.mp split).1⟩, Ne.symm other, (ih.mp split).2⟩
        · rintro ⟨⟨rfl, same⟩, _, plain⟩
          exact ⟨(front, rest), ih.mpr ⟨same, plain⟩, rfl⟩

theorem readDigest_eq_some {digits : List Char} {digest : Digest} :
    readDigest digits = some digest ↔ digits = digest.toText.toList := by
  rw [readDigest, Digest.toText, String.toList_ofList]
  constructor
  · intro read
    split at read
    next valid =>
      obtain rfl := Option.some.inj read
      have same := (hexDigits_ofHexDigits (List.all_eq_true.mp valid.2)).1
      rwa [← size_of_isLowerHex valid.2, valid.1, eq_comm] at same
    next => cases read
  · rintro rfl
    have all : (hexDigits 64 digest.value).all isLowerHex = true :=
      List.all_eq_true.mpr fun _ => isLowerHex_of_mem_hexDigits
    rw [dif_pos ⟨by rw [size_of_isLowerHex all, hexDigits_length], all⟩, Option.some.injEq]
    exact Digest.value_injective (ofHexDigits_hexDigits (digest.isLt.trans_eq (by decide)))

/-- What is read: a version of some spelling and the digest as it is printed. -/
theorem fromStr_eq_ok {value : String} {snapshot : AuthoritySnapshot} :
    fromStr value = .ok snapshot ↔
      ∃ version, value = "v" ++ version ++ ":" ++ snapshot.digest.toText ∧
        parseUnsigned 65535 version = .ok snapshot.version.toNat ∧ snapshot.version ≠ 0 := by
  simp only [fromStr, bind_eq_ok, orRefuse_eq_ok, refuseIf_eq_ok, readDigest_eq_some]
  have read {text : String} {n : Nat} : (parseUnsigned 65535 text).mapError
      (fun _ => SpaceTypeError.invalidAuthorityDigest) = .ok n ↔
        parseUnsigned 65535 text = .ok n := by
    cases parseUnsigned 65535 text <;> simp [Except.mapError]
  constructor
  · rintro ⟨⟨front, last⟩, split, version, stripped, n, parsed, _, positive, digest, rfl, made⟩
    obtain ⟨whole, _⟩ := splitOnce_eq_some.mp split
    rw [read] at parsed
    have value_ : (UInt16.ofNat n).toNat = n :=
      UInt16.toNat_ofNat_of_lt' (Nat.lt_succ_of_le (parseUnsigned_ok parsed).2.1)
    rw [new] at made
    split at made
    next => cases made
    next nonzero =>
      obtain rfl := Except.ok.inj made
      refine ⟨String.ofList version, ?_, by rw [value_, parsed], nonzero⟩
      cases front with
      | nil => cases stripped
      | cons c front =>
        rw [stripPrefix] at stripped
        split at stripped
        next letter =>
          cases stripped
          rw [← String.toList_inj, whole, letter]
          simp
        next => cases stripped
  · rintro ⟨version, rfl, parsed, positive⟩
    have plain : ':' ∉ version.toList := fun colon =>
      absurd ((parseUnsigned_ok parsed).2.2 _ colon) (by decide)
    refine ⟨('v' :: version.toList, snapshot.digest.toText.toList),
      splitOnce_eq_some.mpr ⟨by simp, by simp [plain]⟩, version.toList, rfl, _,
        read.mpr (by rw [String.ofList_toList, parsed]), (), ?_, snapshot.digest, rfl, ?_⟩
    · exact fun zero => positive (UInt16.toNat_inj.mp zero)
    · rw [UInt16.ofNat_toNat, new, if_neg positive]

theorem fromStr_toText (snapshot : AuthoritySnapshot) (positive : snapshot.version ≠ 0) :
    fromStr snapshot.toText = .ok snapshot :=
  fromStr_eq_ok.mpr ⟨_, rfl, parseUnsigned_repr (Nat.le_of_lt_succ snapshot.version.toNat_lt),
    positive⟩

/-- The printed text is the one that was read where the version has no sign and no leading
zero. -/
theorem toText_of_fromStr {value : String} {snapshot : AuthoritySnapshot}
    (read : fromStr value = .ok snapshot) : snapshot.toText = value ↔
      value.toList[1]? ≠ some '+' ∧ value.toList[1]? ≠ some '0' := by
  obtain ⟨version, rfl, parsed, positive⟩ := fromStr_eq_ok.mp read
  have nonzero : snapshot.version.toNat ≠ 0 := fun zero => positive (UInt16.toNat_inj.mp zero)
  have second : ("v" ++ version ++ ":" ++ snapshot.digest.toText).toList[1]? =
      version.toList.head? := by
    obtain ⟨c, rest, some_⟩ := List.exists_cons_of_ne_nil (parseUnsigned_ok parsed).1
    simp [String.toList_append, some_]
  rw [second, ← repr_eq_iff_of_parseUnsigned nonzero parsed, toText, String.append_left_inj,
    String.append_left_inj, String.append_right_inj]

end AuthoritySnapshot

/-! ## The guarantee -/

end OpenMemory.Graph
