import OpenMemory.Foundation.Reader

/-!
# Readers that reserve memory

A decoder reserves a buffer before it fills it, and takes its size from what it has read. Here
a reader also yields the sizes that it asked for. A size that no buffer can have makes it panic.

What a reader asks for is paid for if it has read as many bytes as it has reserved, but for the
last buffer of a reader that fails.
-/

namespace Foundation

/-- The largest size of a buffer: `isize::MAX`. -/
def isizeMax : Nat := 2 ^ 63 - 1

/-- How a reader stops. -/
inductive Halt (ε : Type) where
  | failed (error : ε)
  | panicked
  deriving DecidableEq

/-- A reader, and the sizes that it asks for. -/
def Reserving (ε α : Type) : Type := Bytes → Except (Halt ε) (α × Bytes) × List Nat

namespace Reserving

variable {ε α β : Type}

instance : Monad (Reserving ε) where
  pure value := fun bytes => (.ok (value, bytes), [])
  bind first next := fun bytes =>
    match first bytes with
    | (.error halt, asked) => (.error halt, asked)
    | (.ok (value, rest), asked) => ((next value rest).1, asked ++ (next value rest).2)

/-- Read without a buffer, or into one that is there. -/
def read (reader : Reader ε α) : Reserving ε α := fun bytes =>
  match reader.run bytes with
  | .error error => (.error (.failed error), [])
  | .ok (value, rest) => (.ok (value, rest), [])

/-- `Vec::with_capacity`, for so many bytes. -/
def reserve (size : Nat) : Reserving ε Unit := fun bytes =>
  (if size ≤ isizeMax then .ok ((), bytes) else .error .panicked, [size])

/-- One reader after the other, each told its position. -/
def each (reader : Nat → Reserving ε α) : Nat → Nat → Reserving ε (List α)
  | _, 0 => pure []
  | position, count + 1 => do
      let value ← reader position
      let rest ← each reader (position + 1) count
      return value :: rest

variable {first : Reserving ε α} {next : α → Reserving ε β} {bytes rest : Bytes} {value : α}
  {asked : List Nat} {halt : Halt ε} {size : Nat}

theorem bind_of_error (stops : first bytes = (.error halt, asked)) :
    (first >>= next) bytes = (.error halt, asked) := by
  change (match first bytes with | (.error halt, asked) => _ | (.ok (value, rest), asked) => _) = _
  rw [stops]

theorem bind_of_ok (reads : first bytes = (.ok (value, rest), asked)) :
    (first >>= next) bytes = ((next value rest).1, asked ++ (next value rest).2) := by
  change (match first bytes with | (.error halt, asked) => _ | (.ok (value, rest), asked) => _) = _
  rw [reads]

/-- A reader stops, or reads a value. -/
theorem run_cases (reader : Reserving ε α) (bytes : Bytes) :
    (∃ halt asked, reader bytes = (.error halt, asked)) ∨
      ∃ value rest asked, reader bytes = (.ok (value, rest), asked) := by
  cases ran : reader bytes with
  | mk result asked => cases result with
    | error halt => exact .inl ⟨halt, asked, rfl⟩
    | ok pair => exact .inr ⟨pair.1, pair.2, asked, rfl⟩

theorem read_of_ok {reader : Reader ε α} (reads : reader.run bytes = .ok (value, rest)) :
    read reader bytes = (.ok (value, rest), []) := by
  unfold read
  rw [reads]

theorem read_of_error {reader : Reader ε α} {error : ε} (fails : reader.run bytes = .error error) :
    read reader bytes = (.error (.failed error), []) := by
  unfold read
  rw [fails]

theorem read_asks (reader : Reader ε α) (bytes : Bytes) : (read reader bytes).2 = [] := by
  unfold read
  split <;> rfl

theorem read_eq_ok {reader : Reader ε α} (reads : read reader bytes = (.ok (value, rest), asked)) :
    reader.run bytes = .ok (value, rest) := by
  unfold read at reads
  split at reads
  · cases reads
  · rename_i same
    cases reads
    exact same

/-! ## Two readers in a row -/

theorem bind_eq_ok {result : β} (reads : (first >>= next) bytes = (.ok (result, rest), asked)) :
    ∃ value middle early late, first bytes = (.ok (value, middle), early) ∧
      next value middle = (.ok (result, rest), late) ∧ asked = early ++ late := by
  rcases first.run_cases bytes with ⟨halt, early, stops⟩ | ⟨value, middle, early, here⟩
  · rw [bind_of_error stops] at reads
    cases reads
  · rw [bind_of_ok here] at reads
    obtain ⟨result', late⟩ := Prod.mk.inj reads
    exact ⟨value, middle, early, (next value middle).2, here, Prod.ext result' rfl, late.symm⟩

/-- What is made of a value that is read. -/
theorem read_bind_pure {reader : Reader ε α} {f : α → β} :
    (read reader >>= fun value => (pure (f value) : Reserving ε β)) =
      read (do let value ← reader; return f value) := by
  funext bytes
  cases ran : reader.run bytes with
  | error error =>
    rw [bind_of_error (read_of_error ran), read_of_error]
    rw [StateT.run_bind, ran]
    rfl
  | ok pair =>
    have made : (do let value ← reader; return f value : Reader ε β).run bytes =
        .ok (f pair.1, pair.2) := by
      rw [StateT.run_bind, ran]
      rfl
    rw [bind_of_ok (read_of_ok ran), read_of_ok made]
    rfl

/-- What two readers ask for. -/
theorem mem_bind : size ∈ ((first >>= next) bytes).2 ↔ size ∈ (first bytes).2 ∨
    ∃ value rest, (first bytes).1 = .ok (value, rest) ∧ size ∈ (next value rest).2 := by
  rcases first.run_cases bytes with ⟨halt, asked, stops⟩ | ⟨value, rest, asked, reads⟩
  · rw [bind_of_error stops, stops]
    refine (or_iff_left ?_).symm
    rintro ⟨value, rest, ⟨⟩, _⟩
  · rw [bind_of_ok reads, reads, List.mem_append]
    refine or_congr_right ⟨fun later => ⟨value, rest, rfl, later⟩, ?_⟩
    rintro ⟨value', rest', same, later⟩
    cases same
    exact later

/-- The reader takes the encoding and yields the value, whatever it asks for. -/
def Yields (reader : Reserving ε α) (encoded : Bytes) (value : α) : Prop :=
  ∀ rest, (reader (encoded ++ rest)).1 = .ok (value, rest)

section Yields

variable {encoded more : Bytes}

theorem yields_pure (value : α) : Yields (pure value : Reserving ε α) [] value := fun _ => rfl

theorem yields_read {reader : Reader ε α} (reads : Reads reader encoded value) :
    Yields (read reader) encoded value := fun rest => by rw [read_of_ok (reads rest)]

theorem yields_reserve (small : size ≤ isizeMax) :
    Yields (reserve size : Reserving ε Unit) [] () := fun _ => if_pos small

theorem Yields.bind {result : β} (here : Yields first encoded value)
    (then_ : Yields (next value) more result) :
    Yields (first >>= next) (encoded ++ more) result := by
  intro rest
  have reads : first (encoded ++ (more ++ rest)) =
      (.ok (value, more ++ rest), (first (encoded ++ (more ++ rest))).2) :=
    Prod.ext (here (more ++ rest)) rfl
  rw [List.append_assoc, bind_of_ok reads]
  exact then_ rest

theorem Yields.mem_bind (here : Yields first encoded value) :
    size ∈ ((first >>= next) (encoded ++ rest)).2 ↔
      size ∈ (first (encoded ++ rest)).2 ∨ size ∈ (next value rest).2 := by
  rw [Reserving.mem_bind, here rest]
  refine or_congr_right ⟨?_, fun later => ⟨value, rest, rfl, later⟩⟩
  rintro ⟨value', rest', same, later⟩
  cases same
  exact later

variable {reader : Nat → Reserving ε α} {encode : α → Bytes} {holds : α → Prop}

/-- **What a row of readers asks for** is what one of them asks for behind the values that the
ones before it have read. -/
theorem mem_each (yields : ∀ position value, holds value →
      Yields (reader position) (encode value) value)
    (written : ∀ position bytes value rest asked,
      reader position bytes = (.ok (value, rest), asked) → bytes = encode value ++ rest ∧ holds value)
    {position count : Nat} : size ∈ (each reader position count bytes).2 ↔
      ∃ (values : List α) (rest : Bytes), values.length < count ∧ (∀ value ∈ values, holds value) ∧
        bytes = values.flatMap encode ++ rest ∧
          size ∈ (reader (position + values.length) rest).2 := by
  induction count generalizing position bytes with
  | zero =>
    refine iff_of_false (fun member => nomatch member) ?_
    rintro ⟨_, _, none_, -⟩
    exact absurd none_ (Nat.not_lt_zero _)
  | succ count ih =>
    have step : size ∈ (each reader position (count + 1) bytes).2 ↔
        size ∈ (reader position bytes).2 ∨ ∃ value rest,
          (reader position bytes).1 = .ok (value, rest) ∧
            size ∈ (each reader (position + 1) count rest).2 := by
      rw [each, Reserving.mem_bind]
      refine or_congr_right (exists_congr fun value => exists_congr fun rest =>
        and_congr_right fun _ => ?_)
      rw [Reserving.mem_bind]
      refine or_iff_left ?_
      rintro ⟨_, _, -, member⟩
      cases member
    rw [step]
    constructor
    · rintro (here | ⟨value, rest, reads, later⟩)
      · exact ⟨[], bytes, Nat.succ_pos _, nofun, rfl, here⟩
      · obtain ⟨rfl, held⟩ := written position bytes value rest _ (Prod.ext reads rfl)
        obtain ⟨values, last, few, all, rfl, asks⟩ := ih.mp later
        refine ⟨value :: values, last, Nat.succ_lt_succ few, ?_, ?_, ?_⟩
        · exact List.forall_mem_cons.mpr ⟨held, all⟩
        · rw [List.flatMap_cons, List.append_assoc]
        · rw [List.length_cons, Nat.add_comm values.length, ← Nat.add_assoc]
          exact asks
    · rintro ⟨values, rest, few, all, rfl, asks⟩
      cases values with
      | nil => exact .inl asks
      | cons value values =>
        obtain ⟨held, all⟩ := List.forall_mem_cons.mp all
        refine .inr ⟨value, values.flatMap encode ++ rest, ?_, ih.mpr ⟨values, rest,
          Nat.lt_of_succ_lt_succ few, all, rfl, ?_⟩⟩
        · rw [List.flatMap_cons, List.append_assoc]
          exact yields position value held _
        · rw [List.length_cons, Nat.add_comm values.length, ← Nat.add_assoc] at asks
          exact asks

end Yields

/-! ## Panics -/

/-- A reader panics exactly where it asks for more than a buffer can have. -/
def Honest (reader : Reserving ε α) : Prop :=
  ∀ bytes, (reader bytes).1 = .error .panicked ↔ ∃ size ∈ (reader bytes).2, isizeMax < size

theorem honest_pure (value : α) : Honest (pure value : Reserving ε α) := fun _ =>
  iff_of_false nofun (fun ⟨_, member, _⟩ => nomatch member)

theorem honest_read (reader : Reader ε α) : Honest (read reader) := by
  intro bytes
  refine iff_of_false (fun panics => ?_) fun ⟨size, member, _⟩ => ?_
  · unfold read at panics
    split at panics <;> cases panics
  · rw [read_asks] at member
    cases member

theorem honest_reserve (size : Nat) : Honest (reserve size : Reserving ε Unit) := by
  intro bytes
  unfold reserve
  dsimp only
  split
  · rename_i small
    refine iff_of_false nofun fun ⟨other, member, large⟩ => ?_
    rw [List.mem_singleton.mp member] at large
    omega
  · exact iff_of_true rfl ⟨size, List.mem_singleton_self _, by omega⟩

theorem Honest.bind (here : Honest first) (then_ : ∀ value, Honest (next value)) :
    Honest (first >>= next) := by
  intro bytes
  have early := here bytes
  rcases first.run_cases bytes with ⟨halt, asked, stops⟩ | ⟨value, rest, asked, reads⟩
  · rw [stops] at early
    rw [bind_of_error stops]
    rw [← early]
    exact ⟨fun same => by cases same; rfl, fun same => by cases same; rfl⟩
  · rw [reads] at early
    rw [bind_of_ok reads, then_ value rest]
    constructor
    · rintro ⟨size, member, large⟩
      exact ⟨size, List.mem_append_right _ member, large⟩
    · rintro ⟨size, member, large⟩
      rcases List.mem_append.mp member with before | after
      · cases early.mpr ⟨size, before, large⟩
      · exact ⟨size, after, large⟩

theorem honest_each {reader : Nat → Reserving ε α} (honest : ∀ position, Honest (reader position))
    (position count : Nat) : Honest (each reader position count) := by
  induction count generalizing position with
  | zero => exact honest_pure _
  | succ count ih =>
    exact (honest position).bind fun _ => (ih _).bind fun _ => honest_pure _

/-! ## Bounds -/

/-- What is reserved has been read, but for the last buffer of a reader that stops, which is at
most of a given size if all are. -/
def Paid (most : Nat) (reader : Reserving ε α) : Prop :=
  ∀ bytes, (∀ value rest asked, reader bytes = (.ok (value, rest), asked) →
      asked.sum + rest.length ≤ bytes.length) ∧
    ∀ halt asked, reader bytes = (.error halt, asked) → (∀ size ∈ asked, size ≤ most) →
      asked.sum ≤ bytes.length + most

variable {most : Nat}

theorem Paid.bind (here : Paid most first) (then_ : ∀ value, Paid most (next value)) :
    Paid most (first >>= next) := by
  intro bytes
  obtain ⟨read, stopped⟩ := here bytes
  rcases first.run_cases bytes with ⟨halt, asked, stops⟩ | ⟨value, middle, early, reads⟩
  · rw [bind_of_error stops]
    refine ⟨fun _ _ _ same => (by cases same), fun _ _ same within => ?_⟩
    cases same
    exact stopped halt asked stops within
  · rw [bind_of_ok reads]
    have first_ := read value middle early reads
    obtain ⟨later, stops⟩ := then_ value middle
    refine ⟨fun result rest asked same => ?_, fun halt asked same within => ?_⟩
    · obtain ⟨result_, rfl⟩ := Prod.mk.inj same
      have second := later result rest (next value middle).2 (Prod.ext result_ rfl)
      rw [List.sum_append]
      omega
    · obtain ⟨result_, rfl⟩ := Prod.mk.inj same
      have second := stops halt (next value middle).2 (Prod.ext result_ rfl) fun size member =>
        within size (List.mem_append_right _ member)
      rw [List.sum_append]
      omega

theorem paid_pure (value : α) : Paid most (pure value : Reserving ε α) := by
  refine fun bytes => ⟨fun _ _ _ same => ?_, fun _ _ same _ => by cases same⟩
  cases same
  exact Nat.le_of_eq (Nat.zero_add _)

/-- A reader that never reads more than there is. -/
theorem paid_read {reader : Reader ε α}
    (shortens : ∀ bytes value rest, reader.run bytes = .ok (value, rest) →
      rest.length ≤ bytes.length) : Paid most (read reader) := by
  refine fun bytes => ⟨fun value rest asked same => ?_, fun halt asked same _ => ?_⟩
  · have none_ : asked = [] := by
      rw [← read_asks reader bytes, same]
    rw [none_, List.sum_nil, Nat.zero_add]
    exact shortens bytes value rest (read_eq_ok same)
  · have none_ : asked = [] := by
      rw [← read_asks reader bytes, same]
    rw [none_, List.sum_nil]
    exact Nat.zero_le _

/-- A buffer that is filled by what is read into it. -/
theorem paid_fill {reader : Reader ε α}
    (fills : ∀ bytes value rest, reader.run bytes = .ok (value, rest) →
      size + rest.length ≤ bytes.length) : Paid most (reserve size >>= fun _ => read reader) := by
  intro bytes
  have asks : ((reserve size >>= fun _ => read reader : Reserving ε α) bytes).2 = [size] := by
    rcases (reserve size : Reserving ε Unit).run_cases bytes with
      ⟨halt, asked, stops⟩ | ⟨value, rest, asked, reads⟩
    · rw [bind_of_error stops]
      exact (congrArg Prod.snd stops).symm
    · rw [bind_of_ok reads, read_asks, List.append_nil]
      exact (congrArg Prod.snd reads).symm
  refine ⟨fun value rest asked same => ?_, fun halt asked same within => ?_⟩
  · rw [same] at asks
    obtain ⟨_, middle, _, _, reserves, reads, -⟩ := bind_eq_ok same
    have still : middle = bytes := by
      unfold reserve at reserves
      split at reserves
      · cases reserves
        rfl
      · cases reserves
    dsimp only at asks
    rw [asks, List.sum_singleton]
    exact fills bytes value rest (still ▸ read_eq_ok reads)
  · rw [same] at asks
    dsimp only at asks
    have small := within size (asks ▸ List.mem_singleton_self _)
    rw [asks, List.sum_singleton]
    omega

/-- All that is asked for, where no request is larger than a given size. -/
theorem Paid.sum_le (paid : Paid most first) (within : ∀ size ∈ (first bytes).2, size ≤ most) :
    (first bytes).2.sum ≤ bytes.length + most := by
  obtain ⟨read, stopped⟩ := paid bytes
  rcases first.run_cases bytes with ⟨halt, asked, stops⟩ | ⟨value, rest, asked, reads⟩
  · rw [stops] at within ⊢
    exact stopped halt asked stops within
  · rw [reads]
    have enough := read value rest asked reads
    dsimp only
    omega

theorem reserve_bind_asks {next : Unit → Reserving ε β} :
    ((reserve size >>= next) bytes).2 =
      if size ≤ isizeMax then size :: (next () bytes).2 else [size] := by
  split
  · rename_i small
    have reserved : (reserve size : Reserving ε Unit) bytes = (.ok ((), bytes), [size]) := by
      rw [reserve, if_pos small]
    rw [bind_of_ok reserved]
    rfl
  · rename_i large
    have refused : (reserve size : Reserving ε Unit) bytes = (.error .panicked, [size]) := by
      rw [reserve, if_neg large]
    rw [bind_of_error refused]

theorem paid_each {reader : Nat → Reserving ε α} (paid : ∀ position, Paid most (reader position))
    (position count : Nat) : Paid most (each reader position count) := by
  induction count generalizing position with
  | zero => exact paid_pure _
  | succ count ih => exact (paid position).bind fun _ => (ih _).bind fun _ => paid_pure _

end Reserving

end Foundation
