import OpenMemory.Foundation.ByteCodec

/-!
# The blake3 hash function

A plain evaluation of blake3 on byte lists. Nothing is proved about it here
except that it yields 32 bytes: models keep the hash function a parameter. It is
written to be evaluated, so that an example can be run with the hash the program
really uses.

The sixteen words of the state are kept in four numbers, each with four lanes of
64 bits. A word occupies the lower half of its lane, and the upper half takes
the carry, so one operation on numbers works on four words at once.
-/

namespace Foundation

namespace Blake3

/-- Evaluate a number before going on. -/
def forced {α : Type} (n : Nat) (next : Nat → α) : α :=
  match n with
  | 0 => next 0
  | m + 1 => next (m + 1)

/-! ## Lanes -/

/-- Keep the lower half of every lane. -/
def words (n : Nat) : Nat :=
  Nat.land n 0xFFFFFFFF00000000FFFFFFFF00000000FFFFFFFF00000000FFFFFFFF

def packed (a b c d : Nat) : Nat :=
  Nat.lor (Nat.lor a (Nat.shiftLeft b 64)) (Nat.lor (Nat.shiftLeft c 128) (Nat.shiftLeft d 192))

def unpacked (n : Nat) : List Nat :=
  [n % 2 ^ 32, n / 2 ^ 64 % 2 ^ 32, n / 2 ^ 128 % 2 ^ 32, n / 2 ^ 192 % 2 ^ 32]

/-- Rotate every word: `right + left` is the width of a word. Also rotate the
lanes among each other, when it is the width of all lanes. -/
def rotated (n right left : Nat) : Nat :=
  words (Nat.lor (Nat.shiftRight n right) (Nat.shiftLeft n left))

example : unpacked (packed 1 2 3 4) = [1, 2, 3, 4] := by decide

/-! ## Compression -/

/-- The quarter round, on four columns at once. -/
def mixed {α : Type} (a b c d x y : Nat) (next : Nat → Nat → Nat → Nat → α) : α :=
  forced (words (Nat.add (Nat.add a b) x)) fun a =>
  forced (rotated (Nat.xor d a) 16 16) fun d =>
  forced (words (Nat.add c d)) fun c =>
  forced (rotated (Nat.xor b c) 12 20) fun b =>
  forced (words (Nat.add (Nat.add a b) y)) fun a =>
  forced (rotated (Nat.xor d a) 8 24) fun d =>
  forced (words (Nat.add c d)) fun c =>
  forced (rotated (Nat.xor b c) 7 25) fun b =>
  next a b c d

/-- A round mixes the columns, and then the diagonals as if they were columns. -/
def mixRound {α : Type} (a b c d : Nat) (block : List Nat) (next : Nat → Nat → Nat → Nat → α) : α :=
  match block with
  | [m0, m1, m2, m3, m4, m5, m6, m7, m8, m9, m10, m11, m12, m13, m14, m15] =>
    forced (packed m0 m2 m4 m6) fun x =>
    forced (packed m1 m3 m5 m7) fun y =>
    mixed a b c d x y fun a b c d =>
    forced (rotated b 64 192) fun b =>
    forced (rotated c 128 128) fun c =>
    forced (rotated d 192 64) fun d =>
    forced (packed m8 m10 m12 m14) fun x =>
    forced (packed m9 m11 m13 m15) fun y =>
    mixed a b c d x y fun a b c d =>
    forced (rotated b 192 64) fun b =>
    forced (rotated c 128 128) fun c =>
    forced (rotated d 64 192) fun d =>
    next a b c d
  | _ => next a b c d

def permuted : List Nat → List Nat
  | [m0, m1, m2, m3, m4, m5, m6, m7, m8, m9, m10, m11, m12, m13, m14, m15] =>
    [m2, m6, m3, m10, m7, m0, m4, m13, m1, m11, m12, m5, m9, m14, m15, m8]
  | block => block

def mixRounds {α : Type} : Nat → Nat → Nat → Nat → Nat → List Nat →
    (Nat → Nat → Nat → Nat → α) → α
  | 0, a, b, c, d, _, next => next a b c d
  | n + 1, a, b, c, d, block, next =>
    mixRound a b c d block fun a b c d => mixRounds n a b c d (permuted block) next

/-- The eight words that are carried from block to block. -/
structure Chaining where
  first : Nat
  last : Nat

def initial : Chaining where
  first := packed 0x6A09E667 0xBB67AE85 0x3C6EF372 0xA54FF53A
  last := packed 0x510E527F 0x9B05688C 0x1F83D9AB 0x5BE0CD19

def chunkStart : Nat := 1
def chunkEnd : Nat := 2
def parent : Nat := 4
def root : Nat := 8

def compress (chaining : Chaining) (block : List Nat) (counter length flags : Nat) : Chaining :=
  mixRounds 7 chaining.first chaining.last initial.first
    (packed (counter % 2 ^ 32) (counter / 2 ^ 32) length flags) block fun a b c d =>
      forced (Nat.xor a c) fun first => forced (Nat.xor b d) fun last => ⟨first, last⟩

/-! ## Chunks and their tree -/

/-- Evaluate all bytes, and read them as numbers, before going on. -/
def forcedBytes {α : Type} : Bytes → (List Nat → α) → α
  | [], next => next []
  | byte :: rest, next =>
    forced byte.toNat fun n => forcedBytes rest fun numbers => next (n :: numbers)

/-- The little-endian words of a block, filled up with zeros. -/
def blockWords : Nat → List Nat → List Nat
  | 0, _ => []
  | n + 1, a :: b :: c :: d :: rest =>
    forced (a + 256 * b + 65536 * c + 16777216 * d) fun word => word :: blockWords n rest
  | n + 1, rest =>
    forced (rest.getD 0 0 + 256 * rest.getD 1 0 + 65536 * rest.getD 2 0) fun word =>
      word :: blockWords n []

/-- The blocks of one chunk, of which there are at most `fuel`. -/
def compressChunk (flags counter : Nat) : Nat → Nat → Chaining → List Nat → Chaining
  | 0, _, chaining, _ => chaining
  | fuel + 1, start, chaining, bytes =>
    match bytes.drop 64 with
    | [] => compress chaining (blockWords 16 bytes) counter bytes.length
        (start + chunkEnd + flags)
    | byte :: rest => compressChunk flags counter fuel 0
        (compress chaining (blockWords 16 bytes) counter 64 start) (byte :: rest)

/-- The number of bytes of the left subtree: a power of two of whole chunks. -/
def leftLength (length : Nat) : Nat := 2 ^ Nat.log2 ((length - 1) / 1024) * 1024

def compressTree : Nat → Nat → Nat → List Nat → Chaining
  | 0, _, _, _ => initial
  | depth + 1, flags, counter, bytes =>
    if bytes.length ≤ 1024 then compressChunk flags counter 16 chunkStart initial bytes
    else
      let left := leftLength bytes.length
      let first := compressTree depth 0 counter (bytes.take left)
      let last := compressTree depth 0 (counter + left / 1024) (bytes.drop left)
      compress initial (unpacked first.first ++ unpacked first.last ++ unpacked last.first ++
        unpacked last.last) 0 64 (parent + flags)

/-- The words of the digest. An input has fewer than `2 ^ 64` bytes, so 64 levels
are enough. -/
def digestWords (bytes : Bytes) : List Nat :=
  forcedBytes bytes fun numbers =>
    let chaining := compressTree 64 root 0 numbers
    unpacked chaining.first ++ unpacked chaining.last

/-- The digest as a big-endian number. The words themselves are little-endian. -/
def digest (bytes : Bytes) : Nat :=
  (((digestWords bytes).flatMap (leBytes 4)).foldl (fun n byte => 256 * n + byte.toNat) 0)
    % 256 ^ 32

theorem digest_lt (bytes : Bytes) : digest bytes < 256 ^ 32 :=
  Nat.mod_lt _ (by decide)

/-- The published value for the empty input. -/
example : digest [] = 0xaf1349b9f5f9a1a6a0404dea36dcc9499bcb25c9adc112b7cc9a93cae41f3262 := by
  decide +kernel

end Blake3

end Foundation
