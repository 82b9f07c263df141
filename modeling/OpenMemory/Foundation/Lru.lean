import Mathlib

/-!
# Least recently used caches

A cache of bounded size keeps its entries in the order of their last use, the
most recent first. A lookup moves the entry it finds to the front, and putting
an entry in drops what no longer fits behind it. Whatever a cache holds was put
there under the key it is found under.
-/

namespace Foundation

universe u v

/-- A cache of at most `capacity` entries with one entry for each key. -/
structure Lru (κ : Type u) (α : Type v) where
  capacity : Nat
  entries : List (κ × α)
  bounded : entries.length ≤ capacity
  distinct : (entries.map Prod.fst).Nodup

namespace Lru

variable {κ : Type u} {α : Type v} [DecidableEq κ]

def empty (capacity : Nat) : Lru κ α := ⟨capacity, [], Nat.zero_le capacity, List.nodup_nil⟩

/-- The entry of a key, without using it. -/
def peek (cache : Lru κ α) (key : κ) : Option α := cache.entries.lookup key

/-- The entries of the other keys. -/
def others (cache : Lru κ α) (key : κ) : List (κ × α) :=
  cache.entries.filter fun entry => entry.1 ≠ key

/-- Remove the entry of a key. -/
def pop (cache : Lru κ α) (key : κ) : Lru κ α where
  capacity := cache.capacity
  entries := cache.others key
  bounded := Nat.le_trans (List.length_filter_le _ _) cache.bounded
  distinct := cache.distinct.sublist (List.filter_sublist.map Prod.fst)

theorem not_mem_others (cache : Lru κ α) (key : κ) :
    key ∉ (cache.others key).map Prod.fst := by
  intro member
  obtain ⟨entry, kept, same⟩ := List.mem_map.mp member
  have differs := (List.mem_filter.mp kept).2
  simp [same] at differs

/-- Put an entry in front; the entries that no longer fit are dropped. -/
def put (cache : Lru κ α) (key : κ) (value : α) : Lru κ α where
  capacity := cache.capacity
  entries := ((key, value) :: cache.others key).take cache.capacity
  bounded := List.length_take_le _ _
  distinct := by
    refine List.Nodup.sublist ((List.take_sublist _ _).map Prod.fst) ?_
    rw [List.map_cons, List.nodup_cons]
    exact ⟨cache.not_mem_others key, (cache.pop key).distinct⟩

/-- Look a key up, and count that as a use. -/
def get (cache : Lru κ α) (key : κ) : Option α × Lru κ α :=
  match cache.peek key with
  | some value => (some value, cache.put key value)
  | none => (none, cache)

variable {cache : Lru κ α} {key other : κ} {value held : α}

/-- A lookup finds what a look without use finds. -/
theorem get_fst : (cache.get key).1 = cache.peek key := by
  unfold get
  split
  next value found => exact found.symm
  next missing => exact missing.symm

theorem mem_of_peek (found : cache.peek key = some value) : (key, value) ∈ cache.entries := by
  obtain ⟨before, after, split, -⟩ := List.lookup_eq_some_iff.mp found
  rw [split]
  exact List.mem_append_right _ List.mem_cons_self

theorem mem_of_mem_pop (member : (other, held) ∈ (cache.pop key).entries) :
    (other, held) ∈ cache.entries :=
  (List.mem_filter.mp member).1

theorem mem_of_mem_put (member : (other, held) ∈ (cache.put key value).entries) :
    (other, held) = (key, value) ∨ (other, held) ∈ cache.entries := by
  rcases List.mem_cons.mp (List.mem_of_mem_take member) with same | kept
  · exact .inl same
  · exact .inr (List.mem_filter.mp kept).1

/-- A use brings nothing new into the cache. -/
theorem mem_of_mem_get (member : (other, held) ∈ (cache.get key).2.entries) :
    (other, held) ∈ cache.entries := by
  unfold get at member
  split at member
  next value found =>
    rcases mem_of_mem_put member with same | kept
    · rw [same]
      exact mem_of_peek found
    · exact kept
  next => exact member

theorem mem_of_get (found : (cache.get key).1 = some value) : (key, value) ∈ cache.entries := by
  unfold get at found
  split at found
  next held present =>
    cases found
    exact mem_of_peek present
  next => cases found

end Lru

end Foundation
