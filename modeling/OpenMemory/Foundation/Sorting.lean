import OpenMemory.Foundation.Collections

/-!
# Sorting by a key

A sort under a total order does not depend on the order of the list it is given.
A stable sort by a key does, for the elements that share a key; it leaves these
in the order in which they came. So a list can be recovered from its sorted form
and the keys of its elements, place by place.

An ordered map of lists that elements are pushed onto gives out the elements of
each key together, the keys in increasing order.
-/

namespace Foundation

universe u v

/-! ## Sorts under a total order -/

section Total

variable {α : Type u} {r : α → α → Prop} [DecidableRel r] [Std.Total r] [IsTrans α r]
  [Std.Antisymm r]

theorem insertionSort_eq_of_perm {l l' : List α} (perm : l.Perm l') :
    l.insertionSort r = l'.insertionSort r := by
  apply List.Perm.eq_of_pairwise' (r := r)
  · exact List.pairwise_insertionSort r l
  · exact List.pairwise_insertionSort r l'
  · exact (l.perm_insertionSort r).trans (perm.trans (l'.perm_insertionSort r).symm)

omit [Std.Total r] [IsTrans α r] [Std.Antisymm r] in
theorem perm_of_insertionSort_eq {l l' : List α}
    (same : l.insertionSort r = l'.insertionSort r) : l.Perm l' := by
  have sorted := l.perm_insertionSort r
  rw [same] at sorted
  exact sorted.symm.trans (l'.perm_insertionSort r)

end Total

/-! ## Stable sorts by a key -/

section Stable

variable {α : Type u} {κ : Type v} [LinearOrder κ]

/-- A stable sort by a key. -/
def sortedBy (key : α → κ) (l : List α) : List α :=
  l.insertionSort fun a b => key a ≤ key b

variable {key : α → κ}

theorem sortedBy_perm (l : List α) : (sortedBy key l).Perm l :=
  List.perm_insertionSort _ l

theorem pairwise_sortedBy (l : List α) :
    (sortedBy key l).Pairwise fun a b => key a ≤ key b := by
  have : IsTrans α fun a b => key a ≤ key b := ⟨fun _ _ _ => le_trans⟩
  have : Std.Total fun a b : α => key a ≤ key b := ⟨fun a b => le_total (key a) (key b)⟩
  exact List.pairwise_insertionSort _ l

/-- What is sorted stays as it is. -/
theorem sortedBy_of_pairwise {l : List α} (sorted : l.Pairwise fun a b => key a ≤ key b) :
    sortedBy key l = l :=
  sorted.insertionSort_eq

/-- A part of a list is sorted as it stands in the sorted list. -/
theorem sortedBy_sublist {l l' : List α} (part : l.Sublist l') :
    (sortedBy key l).Sublist (sortedBy key l') := by
  have : IsTrans α fun a b => key a ≤ key b := ⟨fun _ _ _ => le_trans⟩
  induction part with
  | slnil => exact List.Sublist.refl _
  | cons a _ ih => exact ih.trans (List.sublist_orderedInsert _ _)
  | cons_cons a _ ih => exact List.Sublist.orderedInsert_sublist a ih (pairwise_sortedBy _)

/-- The elements of one key stay in the order in which they came. -/
theorem filter_sortedBy (l : List α) (k : κ) :
    (sortedBy key l).filter (fun a => key a = k) = l.filter fun a => key a = k := by
  have held : ∀ a ∈ l.filter (fun a => key a = k), key a = k := fun a member => by
    simpa using (List.mem_filter.mp member).2
  have tied : (l.filter fun a => key a = k).Pairwise fun a b => key a ≤ key b := by
    rw [List.pairwise_iff_forall_sublist]
    intro a b pair
    have first := held a (pair.subset List.mem_cons_self)
    have second := held b (pair.subset (List.mem_cons_of_mem _ List.mem_cons_self))
    exact le_of_eq (first.trans second.symm)
  have : Std.Total fun a b : α => key a ≤ key b := ⟨fun a b => le_total (key a) (key b)⟩
  have : IsTrans α fun a b => key a ≤ key b := ⟨fun _ _ _ below above => le_trans below above⟩
  have inside := (List.sublist_insertionSort tied List.filter_sublist).filter
    fun a => decide (key a = k)
  rw [List.filter_filter] at inside
  simp only [Bool.and_self] at inside
  refine (inside.eq_of_length ?_).symm
  exact ((sortedBy_perm l).filter _).length_eq.symm

theorem eq_of_filter_eq : ∀ {l l' : List α}, l.map key = l'.map key →
    (∀ k, l.filter (fun a => key a = k) = l'.filter fun a => key a = k) → l = l'
  | [], [], _, _ => rfl
  | [], b :: l', keys, _ => by cases keys
  | a :: l, [], keys, _ => by cases keys
  | a :: l, b :: l', keys, same => by
    rw [List.map_cons, List.map_cons, List.cons.injEq] at keys
    obtain ⟨heads, keys⟩ := keys
    have first := same (key a)
    rw [List.filter_cons_of_pos (by simp), List.filter_cons_of_pos (by simp [heads]),
      List.cons.injEq] at first
    obtain ⟨rfl, first⟩ := first
    congr 1
    apply eq_of_filter_eq keys
    intro k
    by_cases own : key a = k
    · rw [← own]
      exact first
    · have rest := same k
      rwa [List.filter_cons_of_neg (by simpa using own),
        List.filter_cons_of_neg (by simpa using own)] at rest

/-- A list is determined by its stably sorted form and the keys in their places. -/
theorem eq_of_sortedBy_eq {l l' : List α} (keys : l.map key = l'.map key)
    (same : sortedBy key l = sortedBy key l') : l = l' := by
  apply eq_of_filter_eq keys
  intro k
  rw [← filter_sortedBy l k, same, filter_sortedBy]

/-- Sorting commutes with a map that keeps the keys. -/
theorem map_sortedBy {β : Type u} (f : α → β) {other : β → κ} (keeps : ∀ a, other (f a) = key a)
    (l : List α) : (sortedBy key l).map f = sortedBy other (l.map f) := by
  apply List.map_insertionSort
  intro a _ b _
  rw [keeps, keeps]

end Stable

/-! ## Maps of lists -/

section Grouped

variable {α β : Type u} {κ : Type v} [LinearOrder κ]

/-- The elements under each of their keys, the keys in increasing order. -/
def groupedBy (key : α → κ) (l : List α) : List (κ × List α) :=
  (ascending (l.map key).toFinset).map fun k => (k, l.filter fun a => key a = k)

theorem groupedBy_map (f : α → β) {key : α → κ} {other : β → κ} (keeps : ∀ a, other (f a) = key a)
    (l : List α) :
    groupedBy other (l.map f) = (groupedBy key l).map fun group => (group.1, group.2.map f) := by
  have keys : other ∘ f = key := funext keeps
  simp only [groupedBy, List.map_map, keys]
  apply List.map_congr_left
  intro k _
  simp only [Function.comp_apply, List.filter_map]
  simp only [Function.comp_def, keeps]

end Grouped

end Foundation

/-!
## Binary search by comparison

The search of a slice as the Rust standard library performs it: the window is
halved until one element is left, and only that element is compared for
equality. On a slice that is not sorted the result may miss an element, but an
index that is found always compares equal (`binarySearchBy_ok`).
-/

namespace Foundation

universe u

variable {α : Type u}

/-- Halve the window of `size` elements from `base`. Each round shrinks it, so
as many rounds as there are elements are enough. -/
def narrowWindow (xs : List α) (compared : α → Ordering) : Nat → Nat → Nat → Nat
  | 0, _, base => base
  | rounds + 1, size, base =>
    if size > 1 then
      let half := size / 2
      let mid := base + half
      let base := match (xs[mid]?).map compared with
        | some .gt => base
        | _ => mid
      narrowWindow xs compared rounds (size - half) base
    else base

/-- `slice::binary_search_by`: an index that compares equal, or where one would
have to be inserted. -/
def binarySearchBy (xs : List α) (compared : α → Ordering) : Except Nat (Fin xs.length) :=
  let base := narrowWindow xs compared xs.length xs.length 0
  if bounded : base < xs.length then
    match compared xs[base] with
    | .eq => .ok ⟨base, bounded⟩
    | .lt => .error (base + 1)
    | .gt => .error base
  else .error 0

theorem binarySearchBy_ok {xs : List α} {compared : α → Ordering} {index : Fin xs.length}
    (found : binarySearchBy xs compared = .ok index) : compared xs[index] = .eq := by
  simp only [binarySearchBy] at found
  split at found
  · split at found
    · rename_i equal
      cases found
      exact equal
    · cases found
    · cases found
  · cases found

end Foundation
