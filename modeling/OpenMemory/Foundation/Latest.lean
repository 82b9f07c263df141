import Mathlib

/-!
# Logs that hold the latest value of a key

What was stored last under each key is a partial function. A log agrees with it when it
holds no key twice, and nothing that was superseded; a log may hold less. Logs are lists,
or rows that are looked up under an index of their own, such as a position or a label.
-/

namespace Foundation

universe u v w x y z

variable {κ : Type u} {ε : Type v} {α : Type w} {β : Type x} {ι : Type y} {σ : Type z}

/-- No key occurs twice, and what occurs fits the latest value of its key. -/
structure HoldsLatest (key : α → κ) (fits : ε → α → Prop) (latest : κ → Option ε)
    (items : List α) : Prop where
  distinct : (items.map key).Nodup
  current : ∀ item ∈ items, ∃ value, latest (key item) = some value ∧ fits value item

/-- No key is found under two indices, and what is found fits the latest value. -/
structure FindsLatest (key : α → κ) (fits : ε → α → Prop) (latest : κ → Option ε)
    (lookup : ι → Option α) : Prop where
  unique : ∀ i j a b, lookup i = some a → lookup j = some b → key a = key b → i = j
  current : ∀ i a, lookup i = some a → ∃ value, latest (key a) = some value ∧ fits value a

variable {key : α → κ} {fits : ε → α → Prop} {latest other : κ → Option ε}
  {items more : List α} {lookup later : ι → Option α}

namespace HoldsLatest

theorem nil : HoldsLatest key fits latest [] :=
  ⟨List.nodup_nil, fun item member => by cases member⟩

variable (holds : HoldsLatest key fits latest items)

include holds

/-- Less is held, in any order. -/
theorem subperm (less : more.Subperm items) : HoldsLatest key fits latest more where
  distinct := by
    obtain ⟨middle, same, sub⟩ := less
    exact (same.map key).nodup_iff.mp (holds.distinct.sublist (sub.map key))
  current item member := holds.current item (less.subset member)

theorem congr (agree : ∀ item ∈ items, latest (key item) = other (key item)) :
    HoldsLatest key fits other items where
  distinct := holds.distinct
  current item member := agree item member ▸ holds.current item member

/-- New keys are added. -/
theorem append (added : HoldsLatest key fits latest more)
    (fresh : ∀ item ∈ items, ∀ new ∈ more, key item ≠ key new) :
    HoldsLatest key fits latest (items ++ more) where
  distinct := by
    rw [List.map_append, List.nodup_append]
    refine ⟨holds.distinct, added.distinct, ?_⟩
    intro held old new young same
    obtain ⟨item, member, rfl⟩ := List.mem_map.mp old
    obtain ⟨item', member', rfl⟩ := List.mem_map.mp young
    exact fresh item member item' member' same
  current item member := by
    rcases List.mem_append.mp member with old | new
    · exact holds.current item old
    · exact added.current item new

/-- The same keys are held in another form. -/
theorem map {f : α → β} {key' : β → κ}
    {fits' : ε → β → Prop} (keys : ∀ item ∈ items, key' (f item) = key item)
    (still : ∀ value, ∀ item ∈ items, fits value item → fits' value (f item)) :
    HoldsLatest key' fits' latest (items.map f) where
  distinct := by
    rw [List.map_map]
    exact (List.map_congr_left keys : items.map (key' ∘ f) = items.map key) ▸ holds.distinct
  current item member := by
    obtain ⟨held, original, rfl⟩ := List.mem_map.mp member
    obtain ⟨value, found, fit⟩ := holds.current held original
    exact ⟨value, (keys held original).symm ▸ found, still value held original fit⟩

/-- What a list holds is found under its positions. -/
theorem finds : FindsLatest key fits latest fun position : Nat => items[position]? where
  unique i j a b first second same := by
    obtain ⟨inside, rfl⟩ := List.getElem?_eq_some_iff.mp first
    obtain ⟨inside', rfl⟩ := List.getElem?_eq_some_iff.mp second
    have bound : i < (items.map key).length := by rwa [List.length_map]
    have bound' : j < (items.map key).length := by rwa [List.length_map]
    have keys : (items.map key)[i] = (items.map key)[j] := by
      rwa [List.getElem_map, List.getElem_map]
    exact holds.distinct.getElem_inj_iff.mp keys
  current i a found := holds.current a (List.mem_of_getElem? found)

end HoldsLatest

namespace FindsLatest

theorem empty : FindsLatest key fits latest fun _ : ι => none :=
  ⟨fun _ _ _ _ found => (by cases found), fun _ _ found => (by cases found)⟩

variable (finds : FindsLatest key fits latest lookup)

include finds

/-- Less is found. -/
theorem restrict (less : ∀ i a, later i = some a → lookup i = some a) :
    FindsLatest key fits latest later where
  unique i j a b first second := finds.unique i j a b (less i a first) (less j b second)
  current i a found := finds.current i a (less i a found)

theorem congr (agree : ∀ i a, lookup i = some a → latest (key a) = other (key a)) :
    FindsLatest key fits other lookup where
  unique := finds.unique
  current i a found := agree i a found ▸ finds.current i a found

/-- A new key is added, in the place of what was there. -/
theorem put [DecidableEq ι] {i : ι} {a : α}
    {value : ε} (fresh : ∀ j b, lookup j = some b → key b ≠ key a)
    (found : latest (key a) = some value) (fit : fits value a) :
    FindsLatest key fits latest fun j => if j = i then some a else lookup j where
  unique j l b c first second same := by
    split at first
    next here =>
      split at second
      next here' => exact here.trans here'.symm
      next =>
        cases first
        exact absurd same.symm (fresh l c second)
    next =>
      split at second
      next =>
        cases second
        exact absurd same (fresh j b first)
      next => exact finds.unique j l b c first second same
  current j b first := by
    split at first
    next =>
      cases first
      exact ⟨value, found, fit⟩
    next => exact finds.current j b first

/-- What is looked up under distinct indices holds each key once. -/
theorem holds {f : α → σ → β} {key' : β → κ}
    {fits' : ε → β → Prop} (keys : ∀ a s, key' (f a s) = key a)
    (still : ∀ value a s, fits value a → fits' value (f a s)) {found : List (ι × σ)}
    (distinct : (found.map Prod.fst).Nodup) : HoldsLatest key' fits' latest
      (found.filterMap fun (i, s) => (lookup i).map fun a => f a s) := by
  induction found with
  | nil => exact .nil
  | cons entry rest ih =>
    obtain ⟨i, s⟩ := entry
    obtain ⟨absent, distinct⟩ := List.nodup_cons.mp distinct
    have tail := ih distinct
    cases here : lookup i with
    | none =>
      rw [List.filterMap_cons_none (by dsimp only; rw [here]; rfl)]
      exact tail
    | some a =>
      rw [List.filterMap_cons_some (by dsimp only; rw [here]; rfl)]
      refine @HoldsLatest.append _ _ _ _ _ _ [f a s] _ ⟨List.nodup_singleton _, ?_⟩ tail ?_
      · intro item member
        cases List.mem_singleton.mp member
        obtain ⟨value, latest', fit⟩ := finds.current i a here
        exact ⟨value, (keys a s).symm ▸ latest', still value a s fit⟩
      · intro item member new inside same
        cases List.mem_singleton.mp member
        obtain ⟨⟨j, s'⟩, later, mapped⟩ := List.mem_filterMap.mp inside
        obtain ⟨b, there, rfl⟩ := Option.map_eq_some_iff.mp mapped
        rw [keys, keys] at same
        have index := finds.unique i j a b here there same
        subst index
        exact absent (List.mem_map.mpr ⟨(i, s'), later, rfl⟩)

end FindsLatest

end Foundation
