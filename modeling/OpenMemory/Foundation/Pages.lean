import OpenMemory.Foundation.Sorting

/-!
# Pages of lists

A page is what stands in a list behind an offset, up to a limit. A list from which
elements are missing has the same page exactly where the page is empty, or nothing is
missing up to its end.

Pages behind a cursor are cut from rows in the order of a key. The rows behind a cursor
are the page and what is behind its last row (`behind_eq_append`), also when rows behind
that row come and go in the meantime.
-/

namespace Foundation

universe u v

variable {α : Type u} {part whole : List α}

/-- What stands behind an offset, up to a limit. -/
def page (list : List α) (limit offset : Nat) : List α := (list.drop offset).take limit

theorem page_eq_drop_take (list : List α) (limit offset : Nat) :
    page list limit offset = (list.take (offset + limit)).drop offset := by
  rw [page, List.drop_take, Nat.add_sub_cancel_left]

/-- Parts of the pieces of a list are a part of it. -/
theorem sublist_flatMap {β : Type u} {few many : β → List α} {list : List β}
    (parts : ∀ b, (few b).Sublist (many b)) : (list.flatMap few).Sublist (list.flatMap many) := by
  induction list with
  | nil => exact List.Sublist.refl _
  | cons b rest ih =>
    rw [List.flatMap_cons, List.flatMap_cons]
    exact (parts b).append ih

/-- Where what is made of an element tells which one it was, nothing is made twice. -/
theorem sublist_map_filterMap {β : Type u} {γ : Type v} {f : α → Option β} {made : β → γ}
    {source : α → γ} {list : List α} (agrees : ∀ a b, f a = some b → made b = source a) :
    ((list.filterMap f).map made).Sublist (list.map source) := by
  induction list with
  | nil => exact List.Sublist.refl _
  | cons a rest ih =>
    cases one : f a with
    | none =>
      rw [List.filterMap_cons_none one, List.map_cons]
      exact ih.cons _
    | some b =>
      rw [List.filterMap_cons_some one, List.map_cons, List.map_cons, agrees a b one]
      exact ih.cons_cons _

/-- A part that has the beginning of the whole begins with it. -/
theorem take_eq_of_subset (distinct : whole.Nodup) (sublist : part.Sublist whole) {count : Nat}
    (all : ∀ a ∈ whole.take count, a ∈ part) : part.take count = whole.take count := by
  rw [← List.take_append_drop count whole, List.sublist_append_iff] at sublist
  obtain ⟨first, last, rfl, early, late⟩ := sublist
  have apart : (whole.take count).Disjoint (whole.drop count) :=
    List.disjoint_of_nodup_append ((List.take_append_drop count whole).symm ▸ distinct)
  have once : (whole.take count).Nodup := distinct.sublist (List.take_sublist _ _)
  have same : first = whole.take count := by
    refine early.eq_of_length_le (once.subperm fun a member => ?_).length_le
    rcases List.mem_append.mp (all a member) with here | there
    · exact here
    · exact absurd (late.subset there) (apart member)
  subst same
  by_cases short : whole.length ≤ count
  · rw [List.drop_of_length_le short, List.sublist_nil] at late
    rw [late, List.append_nil, List.take_take, Nat.min_self]
  · have length : (whole.take count).length = count :=
      List.length_take_of_le (Nat.le_of_not_le short)
    rw [List.take_append_of_le_length (Nat.le_of_eq length.symm), List.take_take, Nat.min_self]

/-- What stands in front of an element of a part stands in front of it in the whole. -/
theorem sublist_front {a : α} {early late before after : List α}
    (distinct : (before ++ a :: after).Nodup)
    (sublist : (early ++ a :: late).Sublist (before ++ a :: after)) : early.Sublist before := by
  obtain ⟨front, back, split, first, second⟩ := List.append_sublist_iff.mp sublist
  obtain ⟨middle, tail, rfl⟩ := List.append_of_mem (second.subset List.mem_cons_self)
  have once : a ∉ before ∧ a ∉ after := by
    rw [List.nodup_middle, List.nodup_cons, List.mem_append, not_or] at distinct
    exact distinct.1
  rw [← List.append_assoc] at split
  have same : before = front ++ middle :=
    ((List.append_cons_inj_of_notMem once.1 once.2).mp split).1
  rw [same]
  exact first.trans (List.sublist_append_left _ _)

/-- **Pages of a part.** -/
theorem page_eq_iff (distinct : whole.Nodup) (sublist : part.Sublist whole) {limit offset : Nat} :
    page part limit offset = page whole limit offset ↔
      limit = 0 ∨ whole.length ≤ offset ∨ ∀ a ∈ whole.take (offset + limit), a ∈ part := by
  constructor
  · intro same
    by_cases none_ : limit = 0
    · exact .inl none_
    by_cases beyond : whole.length ≤ offset
    · exact .inr (.inl beyond)
    refine .inr (.inr fun a member => ?_)
    -- the page of the whole has a first element, which the part has in the same place
    obtain ⟨count, rfl⟩ := Nat.exists_eq_succ_of_ne_zero none_
    obtain ⟨first, rest, split⟩ : ∃ first rest, whole.drop offset = first :: rest :=
      List.exists_cons_of_ne_nil fun empty => beyond (List.drop_eq_nil_iff.mp empty)
    obtain ⟨others, again⟩ : ∃ others, part.drop offset = first :: others := by
      cases found : part.drop offset with
      | nil =>
        rw [page, page, found, split] at same
        cases same
      | cons other others =>
        rw [page, page, found, split, List.take_succ_cons, List.take_succ_cons,
          List.cons.injEq] at same
        exact ⟨others, by rw [same.1]⟩
    have wholes : whole = whole.take offset ++ first :: rest := by
      rw [← split, List.take_append_drop]
    have parts : part = part.take offset ++ first :: others := by
      rw [← again, List.take_append_drop]
    have fronts : part.take offset = whole.take offset := by
      have early : (part.take offset).Sublist (whole.take offset) := by
        refine @sublist_front _ first _ others _ rest ?_ ?_
        · rw [← wholes]
          exact distinct
        · rw [← wholes, ← parts]
          exact sublist
      refine early.eq_of_length_le ?_
      have reach : offset < part.length := by
        by_contra short
        rw [List.drop_of_length_le (Nat.le_of_not_lt short)] at again
        cases again
      rw [List.length_take, List.length_take]
      omega
    rw [List.take_add, List.mem_append] at member
    rcases member with before | inside
    · rw [← fronts] at before
      exact List.mem_of_mem_take before
    · have shown : a ∈ page part (count + 1) offset := by
        rw [same]
        exact inside
      exact List.mem_of_mem_drop (List.mem_of_mem_take shown)
  · rintro (rfl | beyond | all)
    · rw [page, page, List.take_zero, List.take_zero]
    · rw [page, page, List.drop_of_length_le beyond,
        List.drop_of_length_le (Nat.le_trans sublist.length_le beyond)]
    · rw [page_eq_drop_take, page_eq_drop_take, take_eq_of_subset distinct sublist all]

/-! ## Pages behind a cursor -/

section Keyset

variable {κ : Type v} [LinearOrder κ] {key : α → κ} {cursor : κ} {rows other : List α}

/-- The rows behind a cursor, in the order of their keys. -/
def behind (key : α → κ) (cursor : κ) (rows : List α) : List α :=
  sortedBy key (rows.filter fun a => cursor < key a)

theorem mem_behind {a : α} : a ∈ behind key cursor rows ↔ a ∈ rows ∧ cursor < key a := by
  rw [behind, (sortedBy_perm _).mem_iff, List.mem_filter, decide_eq_true_eq]

theorem pairwise_behind (distinct : (rows.map key).Nodup) :
    (behind key cursor rows).Pairwise fun a b => key a < key b := by
  have apart : ((behind key cursor rows).map key).Nodup := by
    unfold behind
    rw [((sortedBy_perm _).map key).nodup_iff]
    exact distinct.sublist (List.filter_sublist.map key)
  refine (List.Pairwise.and (pairwise_sortedBy _) (List.pairwise_map.mp apart)).imp ?_
  exact fun both => lt_of_le_of_ne both.1 both.2

/-- Lists in increasing order are known by their elements. -/
theorem eq_of_increasing {first second : List α}
    (increasing : first.Pairwise fun a b => key a < key b)
    (rising : second.Pairwise fun a b => key a < key b)
    (same : ∀ a, a ∈ first ↔ a ∈ second) : first = second := by
  have nodup {list : List α} (increasing : list.Pairwise fun a b => key a < key b) :
      list.Nodup := by
    change list.Pairwise fun a b => a ≠ b
    refine increasing.imp ?_
    rintro a b below rfl
    exact lt_irrefl _ below
  have : Std.Antisymm fun a b : α => key a < key b :=
    ⟨fun _ _ below above => absurd above (lt_asymm below)⟩
  exact ((List.perm_ext_iff_of_nodup (nodup increasing) (nodup rising)).mpr same).eq_of_pairwise'
    increasing rising

/-- In increasing order, a page consists of what is up to its last element. -/
theorem mem_take_iff {list : List α} (increasing : list.Pairwise fun a b => key a < key b)
    {limit : Nat} {last : α} (ends : (list.take limit).getLast? = some last) {a : α} :
    a ∈ list.take limit ↔ a ∈ list ∧ key a ≤ key last := by
  obtain ⟨front, split⟩ := List.getLast?_eq_some_iff.mp ends
  have inside : last ∈ list.take limit := by
    rw [split]
    exact List.mem_append_right _ List.mem_cons_self
  constructor
  · intro member
    refine ⟨List.mem_of_mem_take member, ?_⟩
    have page := increasing.sublist (List.take_sublist limit list)
    rw [split] at member page
    rcases List.mem_append.mp member with before | here
    · exact ((List.pairwise_append.mp page).2.2 a before last List.mem_cons_self).le
    · rw [List.mem_singleton.mp here]
  · rintro ⟨member, below⟩
    rw [← List.take_append_drop limit list] at member increasing
    rcases List.mem_append.mp member with before | later
    · exact before
    · exact absurd ((List.pairwise_append.mp increasing).2.2 last inside a later) (not_lt.mpr below)

/-- **A page and what is behind it.** Where the rows up to the last one of a page are the
same, the rows behind a cursor are the page and the rows behind its last one. -/
theorem behind_eq_append (distinct : (rows.map key).Nodup) (others : (other.map key).Nodup)
    {limit : Nat} {last : α} (ends : ((behind key cursor rows).take limit).getLast? = some last)
    (same : ∀ a, key a ≤ key last → (a ∈ other ↔ a ∈ rows)) :
    behind key cursor other =
      (behind key cursor rows).take limit ++ behind key (key last) other := by
  have increasing : (behind key cursor rows).Pairwise fun a b => key a < key b :=
    pairwise_behind distinct
  have past : cursor < key last :=
    (mem_behind.mp (List.mem_of_mem_take (List.mem_of_getLast? ends))).2
  refine eq_of_increasing (pairwise_behind others) ?_ fun a => ?_
  · refine List.pairwise_append.mpr ⟨increasing.sublist (List.take_sublist _ _),
      pairwise_behind others, fun a page b later => ?_⟩
    exact lt_of_le_of_lt ((mem_take_iff increasing ends).mp page).2 (mem_behind.mp later).2
  · rw [List.mem_append, mem_take_iff increasing ends, mem_behind, mem_behind, mem_behind]
    by_cases below : key a ≤ key last
    · rw [same a below, and_iff_left below]
      exact (or_iff_left fun later => absurd later.2 (not_lt.mpr below)).symm
    · rw [or_iff_right fun page => below page.2]
      have above := not_le.mp below
      exact and_congr_right fun _ => ⟨fun _ => above, fun _ => past.trans above⟩

end Keyset

end Foundation
