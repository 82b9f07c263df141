import Mathlib

/-!
# Tables with a primary key

A table is a list of rows under keys that are all distinct. The distinctness is
a field, so a table with two rows under one key cannot be built: inserting a
key that is present is refused, changing a row leaves its key, and deleting
rows only shortens the list. Rows stand in the order of their insertion.

What a table says is the partial function `get?`; every operation is described
by its effect on that function.
-/

namespace Foundation

universe u v w

/-- Rows under distinct keys, oldest first. -/
structure Table (κ : Type u) (ρ : Type v) where
  entries : List (κ × ρ)
  distinct : (entries.map Prod.fst).Nodup

namespace Table

variable {κ : Type u} {ρ : Type v} {ε : Type w} [DecidableEq κ]

omit [DecidableEq κ] in
@[ext] theorem ext {left right : Table κ ρ} (same : left.entries = right.entries) :
    left = right := by
  cases left
  cases right
  cases same
  rfl

instance [DecidableEq ρ] : DecidableEq (Table κ ρ) := fun left right =>
  decidable_of_iff (left.entries = right.entries) ⟨ext, fun same => same ▸ rfl⟩

/-! ## Operations -/

def empty : Table κ ρ := ⟨[], List.nodup_nil⟩

/-- The row under a key. -/
def get? (table : Table κ ρ) (key : κ) : Option ρ := table.entries.lookup key

/-- Add a row; a key that is present is refused. -/
def insert (table : Table κ ρ) (key : κ) (row : ρ) (onDuplicate : ε) : Except ε (Table κ ρ) :=
  if fresh : key ∈ table.entries.map Prod.fst then .error onDuplicate
  else .ok ⟨table.entries ++ [(key, row)], by
    rw [List.map_append, List.nodup_append]
    refine ⟨table.distinct, List.nodup_singleton _, ?_⟩
    intro held member added new same
    rw [List.map_singleton, List.mem_singleton] at new
    rw [same, new] at member
    exact fresh member⟩

/-- Change the row under a key, if there is one. -/
def modify (table : Table κ ρ) (key : κ) (change : ρ → ρ) : Table κ ρ where
  entries := table.entries.map fun entry =>
    (entry.1, if entry.1 = key then change entry.2 else entry.2)
  distinct := by simpa [List.map_map, Function.comp_def] using table.distinct

/-- Write the row under a key, whether or not there is one. -/
def put (table : Table κ ρ) (key : κ) (row : ρ) : Table κ ρ where
  entries :=
    if key ∈ table.entries.map Prod.fst then (table.modify key fun _ => row).entries
    else table.entries ++ [(key, row)]
  distinct := by
    split
    next => exact (table.modify key fun _ => row).distinct
    next fresh =>
      rw [List.map_append, List.map_singleton, List.nodup_append]
      refine ⟨table.distinct, List.nodup_singleton _, ?_⟩
      intro held member added new same
      rw [List.mem_singleton] at new
      exact fresh (by rwa [same, new] at member)

/-- Change every row. -/
def map (table : Table κ ρ) (change : κ → ρ → ρ) : Table κ ρ where
  entries := table.entries.map fun entry => (entry.1, change entry.1 entry.2)
  distinct := by simpa [List.map_map, Function.comp_def] using table.distinct

/-- Keep the rows that satisfy a condition. -/
def filter (table : Table κ ρ) (keep : κ → ρ → Bool) : Table κ ρ where
  entries := table.entries.filter fun entry => keep entry.1 entry.2
  distinct := table.distinct.sublist (List.filter_sublist.map Prod.fst)

/-- Delete the row under a key. -/
def erase (table : Table κ ρ) (key : κ) : Table κ ρ := table.filter fun held _ => held ≠ key

/-! ## What is found after an operation -/

variable {table later : Table κ ρ} {key other : κ} {row value : ρ} {onDuplicate : ε}

theorem get?_eq_some_iff : table.get? key = some row ↔ (key, row) ∈ table.entries := by
  obtain ⟨entries, distinct⟩ := table
  unfold get?
  induction entries with
  | nil => simp
  | cons entry rest ih =>
    obtain ⟨held, value⟩ := entry
    obtain ⟨absent, distinct⟩ := List.nodup_cons.mp distinct
    by_cases here : key = held
    · subst here
      rw [List.lookup_cons_self, List.mem_cons]
      constructor
      · intro found
        exact Or.inl (by cases found; rfl)
      · rintro (head | tail)
        · cases head
          rfl
        · exact absurd (List.mem_map_of_mem tail) absent
    · have skip : (key == held) = false := by simpa using here
      rw [List.lookup_cons, skip]
      refine (ih distinct).trans ?_
      simp [here]

theorem get?_eq_none_iff : table.get? key = none ↔ key ∉ table.entries.map Prod.fst := by
  constructor
  · intro missing member
    obtain ⟨entry, held, rfl⟩ := List.mem_map.mp member
    have found := get?_eq_some_iff.mpr held
    rw [missing] at found
    cases found
  · intro missing
    cases found : table.get? key with
    | none => rfl
    | some row => exact absurd (List.mem_map_of_mem (get?_eq_some_iff.mp found)) missing

@[simp] theorem get?_empty : (empty : Table κ ρ).get? key = none := rfl

/-- A key is inserted exactly when it is not there. -/
theorem insert_eq_ok_iff : table.insert key row onDuplicate = .ok later ↔
    table.get? key = none ∧ later.entries = table.entries ++ [(key, row)] := by
  rw [get?_eq_none_iff]
  unfold insert
  split
  next present => simp [present]
  next absent =>
    constructor
    · intro inserted
      cases inserted
      exact ⟨absent, rfl⟩
    · rintro ⟨_, entries⟩
      exact congrArg Except.ok (ext entries.symm)

/-- A key that is not there can be inserted. -/
theorem exists_insert (absent : table.get? key = none) (row : ρ) (onDuplicate : ε) :
    ∃ later, table.insert key row onDuplicate = .ok later :=
  ⟨_, dif_neg (get?_eq_none_iff.mp absent)⟩

section

variable (inserted : table.insert key row onDuplicate = .ok later)

include inserted

theorem absent_of_insert : table.get? key = none :=
  (insert_eq_ok_iff.mp inserted).1

/-- What an insertion yields, as a function of the key. -/
theorem get?_insert (other : κ) :
    later.get? other = if other = key then some row else table.get? other := by
  obtain ⟨absent, entries⟩ := insert_eq_ok_iff.mp inserted
  apply Option.ext
  intro value
  rw [get?_eq_some_iff, entries, List.mem_append, List.mem_singleton]
  by_cases here : other = key
  · subst here
    rw [if_pos rfl, ← get?_eq_some_iff, absent]
    simp [eq_comm]
  · rw [if_neg here, get?_eq_some_iff]
    simp [here]

theorem get?_insert_self : later.get? key = some row := by
  rw [get?_insert inserted, if_pos rfl]

theorem get?_insert_of_ne (elsewhere : other ≠ key) : later.get? other = table.get? other := by
  rw [get?_insert inserted, if_neg elsewhere]

end

theorem get?_map (change : κ → ρ → ρ) :
    (table.map change).get? key = (table.get? key).map (change key) := by
  obtain ⟨entries, distinct⟩ := table
  unfold get? map
  induction entries with
  | nil => rfl
  | cons entry rest ih =>
    obtain ⟨held, value⟩ := entry
    by_cases here : key = held
    · subst here
      simp [List.lookup_cons_self]
    · have skip : (key == held) = false := by simpa using here
      simp only [List.map_cons, List.lookup_cons, skip]
      exact ih (List.nodup_cons.mp distinct).2

theorem get?_modify (change : ρ → ρ) :
    (table.modify key change).get? other =
      if other = key then (table.get? other).map change else table.get? other := by
  have same : table.modify key change =
      table.map fun held row => if held = key then change row else row := rfl
  rw [same, get?_map]
  by_cases here : other = key
  · simp [here]
  · simp [here]

theorem get?_modify_self (change : ρ → ρ) :
    (table.modify key change).get? key = (table.get? key).map change := by
  rw [get?_modify, if_pos rfl]

theorem get?_modify_of_ne (change : ρ → ρ) (elsewhere : other ≠ key) :
    (table.modify key change).get? other = table.get? other := by
  rw [get?_modify, if_neg elsewhere]

/-- Changing one row is changing every row, each by its key. -/
theorem modify_eq_map (change : ρ → ρ) :
    table.modify key change = table.map fun held row => if held = key then change row else row :=
  rfl

omit [DecidableEq κ] in
theorem map_map (first second : κ → ρ → ρ) :
    (table.map first).map second = table.map fun held row => second held (first held row) := by
  apply ext
  exact List.map_map

omit [DecidableEq κ] in
theorem map_id : (table.map fun _ row => row) = table := by
  apply ext
  exact List.map_id _

theorem get?_of_length_eq_zero (empty : table.entries.length = 0) : table.get? key = none := by
  unfold get?
  rw [List.length_eq_zero_iff.mp empty]
  rfl

theorem length_put_of_fresh (fresh : table.get? key = none) :
    (table.put key row).entries.length = table.entries.length + 1 := by
  have entries : (table.put key row).entries = table.entries ++ [(key, row)] :=
    if_neg (get?_eq_none_iff.mp fresh)
  rw [entries, List.length_append, List.length_singleton]

/-- Writing under a key that is there does not make the table longer. -/
theorem length_put_of_present (present : table.get? key = some value) :
    (table.put key row).entries.length = table.entries.length := by
  have entries : (table.put key row).entries = (table.modify key fun _ => row).entries :=
    if_pos (List.mem_map_of_mem (f := Prod.fst) (get?_eq_some_iff.mp present))
  rw [entries]
  exact List.length_map _

theorem put_of_fresh (fresh : table.get? key = none) :
    (table.put key row).entries = table.entries ++ [(key, row)] :=
  if_neg (get?_eq_none_iff.mp fresh)

theorem get?_put : (table.put key row).get? other =
    if other = key then some row else table.get? other := by
  by_cases present : key ∈ table.entries.map Prod.fst
  · have same : table.put key row = table.modify key fun _ => row := ext (if_pos present)
    rw [same, get?_modify]
    by_cases here : other = key
    · rw [if_pos here, if_pos here, here]
      cases found : table.get? key with
      | none => exact absurd present (get?_eq_none_iff.mp found)
      | some held => rfl
    · rw [if_neg here, if_neg here]
  · obtain ⟨later, inserted⟩ := exists_insert (get?_eq_none_iff.mpr present) row ()
    have same : table.put key row = later :=
      ext ((if_neg present).trans (insert_eq_ok_iff.mp inserted).2.symm)
    rw [same, get?_insert inserted]

theorem get?_filter (keep : κ → ρ → Bool) :
    (table.filter keep).get? key = (table.get? key).filter (keep key) := by
  apply Option.ext
  intro value
  rw [get?_eq_some_iff, Option.filter_eq_some_iff, get?_eq_some_iff]
  simp [filter]

theorem get?_erase : (table.erase key).get? other =
    if other = key then none else table.get? other := by
  rw [erase, get?_filter]
  by_cases here : other = key
  · simp [here]
  · simp only [here, ne_eq, not_false_eq_true, decide_true, if_false]
    cases table.get? other <;> rfl

theorem filter_notMem_nil :
    (table.filter fun key _ => decide (key ∉ ([] : List κ))) = table :=
  ext (List.filter_eq_self.mpr fun _ _ => decide_eq_true List.not_mem_nil)

theorem of_get?_put (held : (table.put key row).get? other = some value) :
    value = row ∨ table.get? other = some value := by
  rw [get?_put] at held
  split at held
  · exact .inl (Option.some.inj held).symm
  · exact .inr held

theorem of_get?_erase (held : (table.erase key).get? other = some value) :
    table.get? other = some value := by
  rw [get?_erase] at held
  exact (Option.ite_none_left_eq_some.mp held).2

/-- A total over the rows, without the row of one key. -/
theorem sum_erase (found : table.get? key = some row) (weight : ρ → Nat) :
    ((table.erase key).entries.map fun entry => weight entry.2).sum + weight row =
      (table.entries.map fun entry => weight entry.2).sum := by
  have kept : ∀ entries : List (κ × ρ), key ∉ entries.map Prod.fst →
      entries.filter (fun entry => decide (entry.1 ≠ key)) = entries := by
    intro entries absent
    refine List.filter_eq_self.mpr fun entry member => decide_eq_true fun same => absent ?_
    rw [← same]
    exact List.mem_map_of_mem member
  obtain ⟨entries, distinct⟩ := table
  unfold get? at found
  unfold erase filter
  dsimp only at found ⊢
  induction entries with
  | nil => cases found
  | cons entry rest ih =>
    obtain ⟨held, value⟩ := entry
    obtain ⟨absent, distinct⟩ := List.nodup_cons.mp distinct
    by_cases here : key = held
    · subst here
      rw [List.lookup_cons_self, Option.some_inj] at found
      subst found
      rw [List.filter_cons_of_neg (by simp), kept rest absent, List.map_cons, List.sum_cons,
        Nat.add_comm]
    · have skip : (key == held) = false := by simpa using here
      rw [List.lookup_cons, skip] at found
      have rest := ih distinct found
      rw [List.filter_cons_of_pos (by simpa using Ne.symm here), List.map_cons, List.sum_cons,
        List.map_cons, List.sum_cons]
      omega

/-- Deleting a row that is there makes the table shorter by one. -/
theorem length_erase (found : table.get? key = some row) :
    (table.erase key).entries.length + 1 = table.entries.length := by
  simpa using sum_erase found fun _ => 1

end Table

end Foundation
