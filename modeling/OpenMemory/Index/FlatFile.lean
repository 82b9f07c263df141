import OpenMemory.Foundation.Reserving
import OpenMemory.Index.Guarantees.VectorPersistence

/-!
# Loading a flat file into memory

`load` reserves room for all entries, for each text and for each vector before it reads them,
and takes the sizes from the file. This is the loader with the memory that it asks for. It
loads what the loader of the index does, unless it panics.
-/

namespace OpenMemory.Index.FlatVectorIndex

open Foundation OpenMemory.Graph

/-- The size of an entry in a vector: three buffers of 24 bytes, and a number. -/
def storedEntrySize : Nat := 80

section Metered

variable (path : String)

def readText (len : Nat) (label : String) : Reader IndexError String := do
  let bytes ← readExact path len label
  match fromUtf8 bytes with
  | some value => return value
  | none => throw (.corrupt path s!"invalid UTF-8 in {label}")

def readStringMetered (label : String) : Reserving IndexError String := do
  let len ← .read (readNumber path 4 label)
  .reserve len
  .read (readText path len label)

/-- The floats of a vector, for which there is room. -/
def readVector (dim i : Nat) : Reader IndexError (List Float32Bits) :=
  readEach (fun j => readFloat path s!"vector[{i}][{j}]") 0 dim

def readEntryMetered (dim i : Nat) : Reserving IndexError StoredEntry := do
  let uri ← readStringMetered path s!"uri[{i}]"
  let text ← readStringMetered path s!"text[{i}]"
  let chunkIndex ← .read (readNumber path 4 s!"chunk_index[{i}]")
  .reserve (4 * dim)
  let vector ← .read (readVector path dim i)
  return ⟨uri, text, UInt32.ofNat chunkIndex, vector⟩

/-- What stands before the entries: their number and the length of their vectors. -/
def readHeader : Reader IndexError (Nat × Nat) := do
  let found ← readExact path 4 "magic"
  if found ≠ magic then
    let shown := debugBytes found
    throw (.corrupt path s!"bad magic: {shown}")
  let count ← readNumber path 8 "count"
  let dim ← readNumber path 4 "dim"
  return (count, dim)

def readEntriesMetered : Reserving IndexError (List StoredEntry) := do
  let (count, dim) ← .read (readHeader path)
  if dim = 0 then return []
  .reserve (storedEntrySize * count)
  .each (readEntryMetered path dim) 0 count

/-- `load`, and the sizes of the buffers that it asks for, that of the file first. -/
def loadMetered (data : Bytes) : Except (Halt IndexError) FlatVectorIndex × List Nat :=
  let (entries, asked) := readEntriesMetered path data
  (entries.map fun (entries, _) => ⟨entries, false⟩, data.length :: asked)

end Metered

variable {path label : String} {data rest : Bytes}

/-! ## The same entries -/

/-- A metered reader reads what a reader does, unless it panics. -/
def Follows {α : Type} (metered : Reserving IndexError α) (reader : Reader IndexError α) : Prop :=
  ∀ bytes, (metered bytes).1 = .error .panicked ∨
    (metered bytes).1 = (reader.run bytes).mapError .failed

namespace Follows

variable {α β : Type} {metered : Reserving IndexError α} {reader : Reader IndexError α}
  {next : α → Reserving IndexError β} {then_ : α → Reader IndexError β}

theorem read : Follows (.read reader) reader := by
  intro bytes
  refine .inr ?_
  unfold Reserving.read
  split
  · rename_i fails
    rw [fails]
    rfl
  · rename_i reads
    rw [reads]
    rfl

theorem pure {value : α} : Follows (Pure.pure value) (Pure.pure value) := fun _ => .inr rfl

theorem bind (first : Follows metered reader) (later : ∀ value, Follows (next value) (then_ value)) :
    Follows (metered >>= next) (reader >>= then_) := by
  intro bytes
  rcases metered.run_cases bytes with ⟨halt, asked, stops⟩ | ⟨value, rest, asked, reads⟩
  · rw [Reserving.bind_of_error stops]
    rcases first bytes with panics | same
    · rw [stops] at panics
      cases panics
      exact .inl rfl
    · rw [stops] at same
      refine .inr ?_
      rw [StateT.run_bind]
      cases ran : reader.run bytes with
      | error error =>
        rw [ran] at same
        cases same
        rfl
      | ok pair =>
        rw [ran] at same
        cases same
  · rw [Reserving.bind_of_ok reads]
    rcases first bytes with panics | same
    · rw [reads] at panics
      cases panics
    · rw [reads] at same
      rw [StateT.run_bind]
      cases ran : reader.run bytes with
      | error error =>
        rw [ran] at same
        cases same
      | ok pair =>
        rw [ran] at same
        cases same
        exact later value rest

/-- To reserve reads nothing. -/
theorem reserve {size : Nat} (later : Follows metered reader) :
    Follows (Reserving.reserve size >>= fun _ => metered) reader := by
  intro bytes
  by_cases small : size ≤ isizeMax
  · have reserved : (Reserving.reserve size : Reserving IndexError Unit) bytes =
        (.ok ((), bytes), [size]) := by
      rw [Reserving.reserve, if_pos small]
    rw [Reserving.bind_of_ok reserved]
    exact later bytes
  · have refused : (Reserving.reserve size : Reserving IndexError Unit) bytes =
        (.error .panicked, [size]) := by
      rw [Reserving.reserve, if_neg small]
    rw [Reserving.bind_of_error refused]
    exact .inl rfl

theorem each {metered : Nat → Reserving IndexError α} {reader : Nat → Reader IndexError α}
    (same : ∀ position, Follows (metered position) (reader position)) (position count : Nat) :
    Follows (.each metered position count) (readEach reader position count) := by
  induction count generalizing position with
  | zero => exact pure
  | succ count ih => exact (same position).bind fun _ => (ih _).bind fun _ => pure

end Follows

theorem follows_readString : Follows (readStringMetered path label) (readString path label) :=
  Follows.read.bind fun _ => .reserve .read

theorem follows_readEntry (dim i : Nat) :
    Follows (readEntryMetered path dim i) (readEntry path dim i) :=
  follows_readString.bind fun _ => follows_readString.bind fun _ => Follows.read.bind fun _ =>
    .reserve (Follows.read.bind fun _ => .pure)

theorem readEntries_eq : readEntries path = (do
    let (count, dim) ← readHeader path
    if dim = 0 then return [] else readEach (readEntry path dim) 0 count) := by
  unfold readEntries readHeader
  rw [bind_assoc]
  congr 1
  funext found
  dsimp only
  split
  · rfl
  · rw [bind_assoc]
    congr 1
    funext count
    rw [bind_assoc]
    congr 1

theorem follows_readEntries : Follows (readEntriesMetered path) (readEntries path) := by
  rw [readEntries_eq]
  refine Follows.read.bind fun header => ?_
  obtain ⟨count, dim⟩ := header
  dsimp only
  split
  · exact Follows.pure
  · exact .reserve (.each (follows_readEntry dim) 0 count)

/-- **The same index** is loaded, unless the loader panics. -/
theorem loadMetered_eq (data : Bytes) : (loadMetered path data).1 = .error .panicked ∨
    (loadMetered path data).1 = (load path data).mapError .failed := by
  unfold loadMetered load
  dsimp only
  have follows : Follows (readEntriesMetered path) (readEntries path) := follows_readEntries
  rcases follows data with panics | same
  · rw [panics]
    exact .inl rfl
  · rw [same]
    refine .inr ?_
    cases (readEntries path).run data with
    | error error => rfl
    | ok pair => rfl

end OpenMemory.Index.FlatVectorIndex
