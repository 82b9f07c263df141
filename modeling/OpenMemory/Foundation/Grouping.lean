import Mathlib

/-!
# Grouping the elements of a list

A hash map into which elements go under their keys keeps the last element of
every key, and gives them out in an order of its own. Where the keys are distinct
it keeps the list. Sorting elements into finitely many groups loses none of them.
-/

namespace Foundation

universe u v

variable {α : Type u} {κ : Type v}

/-! ## Maps from keys to the last element -/

section LastBy

variable [DecidableEq κ] {key : α → κ} {list : List α}

/-- Insert an element in place of the one that is there under its key. -/
def insertBy (key : α → κ) (held : List α) (element : α) : List α :=
  held.filter (fun other => key other ≠ key element) ++ [element]

/-- The elements of a map that those of a list are inserted into one by one. -/
def lastBy (key : α → κ) (list : List α) : List α := list.foldl (insertBy key) []

/-- The element under a key. -/
def findBy (key : α → κ) (list : List α) (wanted : κ) : Option α :=
  list.find? fun element => key element = wanted

theorem lastBy_concat (element : α) :
    lastBy key (list ++ [element]) = insertBy key (lastBy key list) element := by
  rw [lastBy, List.foldl_append]
  rfl

theorem mem_of_mem_lastBy {element : α} (member : element ∈ lastBy key list) : element ∈ list := by
  induction list using List.reverseRecOn with
  | nil => exact member
  | append_singleton rest last ih =>
    rw [lastBy_concat, insertBy, List.mem_append] at member
    rcases member with old | new
    · exact List.mem_append_left _ (ih (List.mem_of_mem_filter old))
    · exact List.mem_append_right _ new

/-- With distinct keys nothing is replaced. -/
theorem lastBy_of_nodup (distinct : (list.map key).Nodup) : lastBy key list = list := by
  induction list using List.reverseRecOn with
  | nil => rfl
  | append_singleton rest last ih =>
    rw [List.map_append, List.nodup_append] at distinct
    obtain ⟨restDistinct, -, apart⟩ := distinct
    rw [lastBy_concat, ih restDistinct, insertBy]
    congr 1
    rw [List.filter_eq_self]
    intro element member
    exact decide_eq_true
      (apart _ (List.mem_map_of_mem member) _ (List.mem_map_of_mem (List.mem_singleton_self _)))

theorem mem_of_findBy {wanted : κ} {element : α} (found : findBy key list wanted = some element) :
    element ∈ list ∧ key element = wanted := by
  unfold findBy at found
  have same := List.find?_some found
  exact ⟨List.mem_of_find?_eq_some found, of_decide_eq_true same⟩

theorem findBy_of_mem (distinct : (list.map key).Nodup) {element : α} (member : element ∈ list) :
    findBy key list (key element) = some element := by
  cases found : findBy key list (key element) with
  | none =>
    unfold findBy at found
    simpa using List.find?_eq_none.mp found element member
  | some other =>
    obtain ⟨there, same⟩ := mem_of_findBy found
    rw [List.inj_on_of_nodup_map distinct there member same]

theorem findBy_eq_some (distinct : (list.map key).Nodup) {wanted : κ} {element : α} :
    findBy key list wanted = some element ↔ element ∈ list ∧ key element = wanted := by
  constructor
  · exact mem_of_findBy
  · rintro ⟨member, rfl⟩
    exact findBy_of_mem distinct member

/-- What is found under a key does not depend on the order. -/
theorem findBy_perm {other : List α} (distinct : (list.map key).Nodup) (perm : list.Perm other)
    (wanted : κ) : findBy key list wanted = findBy key other wanted := by
  have otherDistinct : (other.map key).Nodup := (perm.map key).nodup_iff.mp distinct
  apply Option.ext
  intro element
  rw [findBy_eq_some distinct, findBy_eq_some otherDistinct, perm.mem_iff]

end LastBy

/-! ## The order of a hash map -/

/-- An order in which the elements of a hash map are given out. -/
structure HashOrder (α : Type u) where
  order : List α → List α
  perm : ∀ elements, (order elements).Perm elements

/-- The order of insertion, as one of them. -/
def HashOrder.inserted : HashOrder α := ⟨id, fun _ => List.Perm.refl _⟩

/-! ## Groups -/

theorem flatMap_ite_singleton {β : Type v} (p : α → Prop) [DecidablePred p] (f : α → β)
    (list : List α) :
    (list.flatMap fun element => if p element then [f element] else []) =
      (list.filter fun element => p element).map f := by
  induction list with
  | nil => rfl
  | cons first rest ih =>
    rw [List.flatMap_cons, ih, List.filter_cons]
    by_cases holds : p first
    · simp [holds]
    · simp [holds]

theorem perm_flatMap_filter {γ : Type v} [DecidableEq γ] {groups : List γ} {group : α → γ}
    {list : List α} (distinct : groups.Nodup) (grouped : ∀ element ∈ list, group element ∈ groups) :
    (groups.flatMap fun wanted => list.filter fun element => group element = wanted).Perm list := by
  induction groups generalizing list with
  | nil =>
    cases list with
    | nil => exact List.Perm.refl _
    | cons first rest => cases grouped first List.mem_cons_self
  | cons wanted rest ih =>
    rw [List.nodup_cons] at distinct
    have groupedLess : ∀ element ∈ list.filter fun element => !decide (group element = wanted),
        group element ∈ rest := by
      intro element member
      obtain ⟨there, differs⟩ := List.mem_filter.mp member
      rcases List.mem_cons.mp (grouped element there) with same | later
      · simp [same] at differs
      · exact later
    have others := ih distinct.2 groupedLess
    have unchanged : (rest.flatMap fun other =>
        (list.filter fun element => !decide (group element = wanted)).filter
          fun element => group element = other) =
        rest.flatMap fun other => list.filter fun element => group element = other := by
      rw [List.flatMap_def, List.flatMap_def]
      congr 1
      refine List.map_congr_left fun other later => ?_
      rw [List.filter_filter]
      refine List.filter_congr fun element _ => ?_
      by_cases same : group element = other
      · have differs : other ≠ wanted := fun equal => distinct.1 (equal ▸ later)
        simp [same, differs]
      · simp [same]
    rw [List.flatMap_cons, ← unchanged]
    exact (others.append_left _).trans (List.filter_append_perm _ _)

/-- The groups of a list together are the list. -/
theorem perm_flatMap_groups {domains : Nat} (group : α → Fin domains) (list : List α) :
    ((List.finRange domains).flatMap fun domain =>
      list.filter fun element => group element = domain).Perm list :=
  perm_flatMap_filter (List.nodup_finRange domains) fun _ _ => List.mem_finRange _

/-! ## Lists that are permutations of each other -/

/-- Values under distinct keys are permuted only with their keys. -/
theorem eq_of_perm_of_nodup {β γ : Type v} {list : List α} {key : α → β} {left right : α → γ}
    (distinct : (list.map key).Nodup)
    (perm : (list.map fun element => (key element, left element)).Perm
      (list.map fun element => (key element, right element))) :
    ∀ element ∈ list, left element = right element := by
  intro element member
  have there : (key element, left element) ∈ list.map fun element => (key element, right element) :=
    perm.subset (List.mem_map_of_mem (f := fun element => (key element, left element)) member)
  obtain ⟨other, otherMember, same⟩ := List.mem_map.mp there
  have equal := List.inj_on_of_nodup_map distinct otherMember member (congrArg Prod.fst same)
  subst equal
  exact (congrArg Prod.snd same).symm

/-- A weaker predicate that an element tells apart counts more. -/
theorem countP_lt_countP {p q : α → Bool} {list : List α}
    (implies : ∀ element ∈ list, p element = true → q element = true) {element : α}
    (member : element ∈ list) (holds : q element = true) (fails : p element = false) :
    list.countP p < list.countP q := by
  induction list with
  | nil => cases member
  | cons first rest ih =>
    have laterImplies : ∀ element ∈ rest, p element = true → q element = true :=
      (List.forall_mem_cons.mp implies).2
    rcases List.mem_cons.mp member with rfl | later
    · rw [List.countP_cons_of_neg (by simp [fails]), List.countP_cons_of_pos holds]
      exact Nat.lt_succ_of_le (List.countP_mono_left laterImplies)
    · have less := ih laterImplies later
      by_cases first_p : p first = true
      · rw [List.countP_cons_of_pos first_p,
          List.countP_cons_of_pos (implies first List.mem_cons_self first_p)]
        omega
      · rw [List.countP_cons_of_neg first_p, List.countP_cons]
        omega

end Foundation
