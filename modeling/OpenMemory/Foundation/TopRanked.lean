import Mathlib

/-!
# The best items of a list

The best items are found by a selection, which splits a list at a place and leaves both parts
in any order, and a stable sort of the first part. What is found does not depend on the order
of the list exactly where no two items that could both be found have the same score.
-/

namespace Foundation

/-- A selection in place: afterwards the items up to a place are not after those behind it.
It sees the items only by comparing them. -/
structure Selection where
  run {α : Type} (before : α → α → Bool) (place : Nat) (items : List α) : List α
  perm {α : Type} (before : α → α → Bool) (place : Nat) (items : List α) :
    (run before place items).Perm items
  splits {α : Type} (before : α → α → Bool) (place : Nat) (items : List α)
    (total : ∀ a b, (before a b || before b a) = true)
    (trans : ∀ a b c, before a b = true → before b c = true → before a c = true) :
    ∀ first ∈ (run before place items).take (place + 1),
      ∀ last ∈ (run before place items).drop (place + 1), before first last = true
  compares {α : Type} (before : α → α → Bool) (place : Nat) (items : List α) (rename : Equiv.Perm α)
    (same : ∀ a b, before (rename a) (rename b) = before a b) :
    run before place (items.map rename) = (run before place items).map rename

/-- A sort selects. -/
def Selection.sorting : Selection where
  run before _ items := items.mergeSort before
  perm before _ items := List.mergeSort_perm items before
  splits before place items total trans := by
    have sorted := List.pairwise_mergeSort trans total items
    rw [← List.take_append_drop (place + 1) (items.mergeSort before)] at sorted
    exact fun first here last there => (List.pairwise_append.mp sorted).2.2 first here last there
  compares before place items rename same :=
    (List.map_mergeSort fun a _ b _ => (same a b).symm).symm

variable {α S : Type}

/-- The best of some items, best first. All of them are ranked if none are asked for. -/
def topRanked (select : (α → α → Bool) → Nat → List α → List α) (before : α → α → Bool)
    (limit : Nat) (items : List α) : List α :=
  let selected :=
    if limit < items.length ∧ 0 < limit then (select before (limit - 1) items).take limit
    else items
  selected.mergeSort before

variable [LinearOrder S]

/-- The first scores at least what the second does. -/
def atLeast (score : α → S) (a b : α) : Bool := !(decide (score a < score b))

variable {selection : Selection} {score : α → S} {limit place : Nat} {items : List α} {a b : α}

theorem atLeast_iff : atLeast score a b = true ↔ score b ≤ score a := by
  rw [atLeast, Bool.not_eq_true', decide_eq_false_iff_not, not_lt]

theorem atLeast_total (a b : α) : (atLeast score a b || atLeast score b a) = true := by
  rw [Bool.or_eq_true, atLeast_iff, atLeast_iff]
  exact le_total _ _

theorem atLeast_trans (a b c : α) (first : atLeast score a b = true)
    (second : atLeast score b c = true) : atLeast score a c = true := by
  rw [atLeast_iff] at first second ⊢
  exact second.trans first

abbrev Selection.page (selection : Selection) (score : α → S) (limit : Nat) (items : List α) :
    List α :=
  topRanked selection.run (atLeast score) limit items

variable (selection score limit items) in
theorem page_sorted : (selection.page score limit items).Pairwise fun a b => score b ≤ score a := by
  have transitive : ∀ a b c, atLeast score a b = true → atLeast score b c = true →
      atLeast score a c = true := atLeast_trans
  have sorted := List.pairwise_mergeSort transitive atLeast_total
    (if limit < items.length ∧ 0 < limit then
      (selection.run (atLeast score) (limit - 1) items).take limit else items)
  exact sorted.imp fun _ => atLeast_iff.mp ‹_›

variable (selection score items) in
/-- The items are those on the page and those left out, which score no more. Some are left out
only if the page is full. -/
theorem page_split (some_ : 0 < limit) : ∃ omitted,
    (selection.page score limit items ++ omitted).Perm items ∧
      (omitted ≠ [] → (selection.page score limit items).length = limit) ∧
        ∀ a ∈ selection.page score limit items, ∀ b ∈ omitted, score b ≤ score a := by
  unfold Selection.page topRanked
  dsimp only
  split
  · rename_i many
    refine ⟨(selection.run (atLeast score) (limit - 1) items).drop limit, ?_, fun _ => ?_, ?_⟩
    · refine ((List.mergeSort_perm _ _).append_right _).trans ?_
      rw [List.take_append_drop]
      exact selection.perm _ _ _
    · rw [List.length_mergeSort, List.length_take, (selection.perm _ _ _).length_eq]
      exact min_eq_left many.1.le
    · intro a here b there
      have place : limit - 1 + 1 = limit := Nat.sub_add_cancel some_
      have split := selection.splits (atLeast score) (limit - 1) items atLeast_total atLeast_trans
      rw [place] at split
      exact atLeast_iff.mp (split a ((List.mergeSort_perm _ _).mem_iff.mp here) b there)
  · refine ⟨[], ?_, fun none => absurd rfl none, fun _ _ _ none => nomatch none⟩
    rw [List.append_nil]
    exact List.mergeSort_perm _ _

variable (selection score items) in
theorem page_length (some_ : 0 < limit) :
    (selection.page score limit items).length = min limit items.length := by
  unfold Selection.page topRanked
  dsimp only
  rw [List.length_mergeSort]
  split
  · rw [List.length_take, (selection.perm _ _ _).length_eq]
  · rename_i few
    rw [not_and, not_lt, Nat.le_zero] at few
    exact (min_eq_right (not_lt.mp fun many => some_.ne' (Nat.le_zero.mp (few many).le))).symm

variable (selection score items) in
theorem page_subperm (some_ : 0 < limit) : (selection.page score limit items).Subperm items := by
  obtain ⟨omitted, all, -⟩ := page_split selection score items some_
  exact (List.sublist_append_left _ _).subperm.trans all.subperm

/-! ## The place of an item -/

/-- How many of the items score more. -/
def above (score : α → S) (items : List α) (a : α) : Nat :=
  items.countP fun b => decide (score a < score b)

/-- How many of them score as much or more, the item itself among them. -/
def upTo (score : α → S) (items : List α) (a : α) : Nat :=
  items.countP fun b => decide (score a ≤ score b)

theorem above_le_place (some_ : 0 < limit)
    (here : (selection.page score limit items)[place]? = some a) : above score items a ≤ place := by
  obtain ⟨omitted, all, -, less⟩ := page_split selection score items some_
  have sorted := page_sorted selection score limit items
  obtain ⟨inside, same⟩ := List.getElem?_eq_some_iff.mp here
  set page := selection.page score limit items
  have member : a ∈ page := same ▸ List.getElem_mem inside
  have later : ∀ b ∈ page.drop place, score b ≤ score a := by
    intro b member
    have ends := sorted.sublist (List.drop_sublist place page)
    rw [List.drop_eq_getElem_cons inside, same] at member ends
    rcases List.mem_cons.mp member with rfl | member
    · exact le_rfl
    · exact List.rel_of_pairwise_cons ends member
  have none_later : (page.drop place).countP (fun b => decide (score a < score b)) = 0 :=
    List.countP_eq_zero.mpr fun b member => by simpa using later b member
  have none_omitted : omitted.countP (fun b => decide (score a < score b)) = 0 :=
    List.countP_eq_zero.mpr fun b left => by simpa using less a member b left
  calc above score items a
      = (page ++ omitted).countP fun b => decide (score a < score b) := (all.countP_eq _).symm
    _ = (page.take place ++ page.drop place).countP fun b => decide (score a < score b) := by
        rw [List.countP_append, none_omitted, List.take_append_drop]
        rfl
    _ = (page.take place).countP fun b => decide (score a < score b) := by
        rw [List.countP_append, none_later]
        rfl
    _ ≤ (page.take place).length := List.countP_le_length
    _ ≤ place := List.length_take_le _ _

theorem place_lt_upTo (some_ : 0 < limit)
    (here : (selection.page score limit items)[place]? = some a) : place < upTo score items a := by
  have sorted := page_sorted selection score limit items
  have within := page_subperm selection score items some_
  obtain ⟨inside, same⟩ := List.getElem?_eq_some_iff.mp here
  set page := selection.page score limit items
  have before : ∀ b ∈ page.take (place + 1), score a ≤ score b := by
    intro b member
    obtain ⟨index, early, rfl⟩ := List.mem_take_iff_getElem.mp member
    rw [← same]
    rcases Nat.lt_or_eq_of_le (Nat.le_of_lt_succ (Nat.lt_min.mp early).1) with earlier | rfl
    · exact List.pairwise_iff_getElem.mp sorted _ _ _ _ earlier
    · exact le_rfl
  have every : (page.take (place + 1)).countP (fun b => decide (score a ≤ score b)) =
      (page.take (place + 1)).length :=
    List.countP_eq_length.mpr fun b member => decide_eq_true (before b member)
  calc place < (page.take (place + 1)).length := by
        rw [List.length_take]
        exact Nat.lt_min.mpr ⟨Nat.lt_succ_self _, inside⟩
    _ = (page.take (place + 1)).countP fun b => decide (score a ≤ score b) := every.symm
    _ ≤ upTo score items a := ((List.take_sublist _ _).subperm.trans within).countP_le _

theorem mem_page (some_ : 0 < limit) (member : a ∈ items) (few : upTo score items a ≤ limit) :
    a ∈ selection.page score limit items := by
  obtain ⟨omitted, all, full, less⟩ := page_split selection score items some_
  by_contra absent
  have left := (List.mem_append.mp (all.mem_iff.mpr member)).resolve_left absent
  have length := full (List.ne_nil_of_mem left)
  have every : (selection.page score limit items).countP (fun b => decide (score a ≤ score b)) =
      limit :=
    (List.countP_eq_length.mpr fun b here => decide_eq_true (less b here a left)).trans length
  have itself : 0 < omitted.countP fun b => decide (score a ≤ score b) :=
    List.countP_pos_iff.mpr ⟨a, left, decide_eq_true le_rfl⟩
  have total : upTo score items a = limit + omitted.countP fun b => decide (score a ≤ score b) := by
    rw [← every, ← List.countP_append]
    exact (all.countP_eq _).symm
  omega

/-! ## Ties -/

/-- No two items that could both be found have the same score. -/
def Settled (score : α → S) (limit : Nat) (items : List α) : Prop :=
  ∀ a ∈ items, ∀ b ∈ items, score a = score b → above score items a < limit → a = b

theorem above_perm {other : List α} (same : other.Perm items) (a : α) :
    above score other a = above score items a :=
  same.countP_eq _

theorem Settled.perm {other : List α} (same : other.Perm items)
    (settled : Settled score limit items) : Settled score limit other := by
  intro a left b right tied few
  rw [above_perm same] at few
  exact settled a (same.mem_iff.mp left) b (same.mem_iff.mp right) tied few

/-- In a settled list an item that can be found has a place of its own. -/
theorem Settled.upTo_eq (distinct : items.Nodup) (settled : Settled score limit items)
    (member : a ∈ items) (few : above score items a < limit) :
    upTo score items a = above score items a + 1 := by
  classical
  have first : items.Perm (a :: items.erase a) := List.perm_cons_erase member
  have strict (b : α) (among : b ∈ items.erase a) :
      decide (score a ≤ score b) = true ↔ decide (score a < score b) = true := by
    rw [decide_eq_true_eq, decide_eq_true_eq]
    refine ⟨fun least => least.lt_of_ne fun tied => ?_, le_of_lt⟩
    have same := settled a member b (List.mem_of_mem_erase among) tied few
    exact distinct.not_mem_erase (same ▸ among)
  unfold upTo above
  rw [first.countP_eq, first.countP_eq, List.countP_cons, List.countP_cons,
    List.countP_congr strict, if_pos (decide_eq_true (le_refl (score a))),
    if_neg (by rw [decide_eq_true_eq]; exact lt_irrefl _)]

theorem Settled.place_eq (some_ : 0 < limit) (distinct : items.Nodup)
    (settled : Settled score limit items)
    (here : (selection.page score limit items)[place]? = some a) : above score items a = place := by
  have member : a ∈ items := (page_subperm selection score items some_).subset
    (List.mem_of_getElem? here)
  have inside : place < limit := by
    have short := page_length selection score items some_
    have bound := (List.getElem?_eq_some_iff.mp here).1
    omega
  have least := above_le_place some_ here
  have most := place_lt_upTo some_ here
  rw [settled.upTo_eq distinct member (least.trans_lt inside)] at most
  omega

/-- **A settled page does not depend on the order** of the items. -/
theorem Settled.page_eq (some_ : 0 < limit) (distinct : items.Nodup)
    (settled : Settled score limit items) {other : List α} (same : other.Perm items) :
    selection.page score limit other = selection.page score limit items := by
  have lengths : (selection.page score limit other).length =
      (selection.page score limit items).length := by
    rw [page_length selection score other some_, page_length selection score items some_,
      same.length_eq]
  apply List.ext_getElem? fun index => ?_
  cases here : (selection.page score limit items)[index]? with
  | none =>
    rw [List.getElem?_eq_none_iff] at here ⊢
    omega
  | some a =>
    have member : a ∈ items := (page_subperm selection score items some_).subset
      (List.mem_of_getElem? here)
    have place := settled.place_eq some_ distinct here
    have inside : index < limit := by
      have short := page_length selection score items some_
      have bound := (List.getElem?_eq_some_iff.mp here).1
      omega
    have few : above score items a < limit := by omega
    have reached : upTo score other a ≤ limit := by
      rw [upTo, same.countP_eq]
      change upTo score items a ≤ limit
      rw [settled.upTo_eq distinct member few]
      omega
    have there : a ∈ selection.page score limit other :=
      mem_page some_ (same.mem_iff.mpr member) reached
    obtain ⟨index', there⟩ := List.mem_iff_getElem?.mp there
    have place' := (settled.perm same).place_eq some_ (same.nodup_iff.mpr distinct) there
    rw [above_perm same] at place'
    rw [← place, place', there]

/-- A page commutes with a renaming that keeps the scores. -/
theorem page_map (rename : Equiv.Perm α) (same : ∀ a, score (rename a) = score a) :
    selection.page score limit (items.map rename) =
      (selection.page score limit items).map rename := by
  have alike (a b : α) : atLeast score (rename a) (rename b) = atLeast score a b := by
    unfold atLeast
    rw [same, same]
  unfold Selection.page topRanked
  dsimp only
  rw [List.length_map, List.map_mergeSort fun a _ b _ => (alike a b).symm,
    selection.compares _ _ _ rename alike, ← List.map_take]
  split <;> rfl

omit [LinearOrder S] in
/-- Two items of a list change places. -/
theorem map_swap_perm [DecidableEq α] (distinct : items.Nodup) (left : a ∈ items)
    (right : b ∈ items) : (items.map (Equiv.swap a b)).Perm items := by
  have within (c : α) (there : c ∈ items) : Equiv.swap a b c ∈ items := by
    rw [Equiv.swap_apply_def]
    split
    · exact right
    · split
      · exact left
      · exact there
  refine (List.perm_ext_iff_of_nodup (distinct.map (Equiv.injective _)) distinct).mpr fun c => ?_
  rw [List.mem_map]
  constructor
  · rintro ⟨d, there, rfl⟩
    exact within d there
  · exact fun there => ⟨Equiv.swap a b c, within c there, Equiv.swap_apply_self a b c⟩

/-- **An unsettled page does.** -/
theorem exists_page_ne (some_ : 0 < limit) (distinct : items.Nodup)
    (unsettled : ¬ Settled score limit items) : ∃ other : List α, other.Perm items ∧
      selection.page score limit other ≠ selection.page score limit items := by
  classical
  unfold Settled at unsettled
  push Not at unsettled
  obtain ⟨a, left, b, right, tied, few, apart⟩ := unsettled
  obtain ⟨omitted, all, full, less⟩ := page_split selection score items some_
  -- the page shows some item with the score of the tie
  obtain ⟨x, shown, scored⟩ : ∃ x ∈ selection.page score limit items, score x = score a := by
    by_contra none
    push Not at none
    have out : a ∈ omitted := (List.mem_append.mp (all.mem_iff.mpr left)).resolve_left
      fun shown => none a shown rfl
    have length := full (List.ne_nil_of_mem out)
    have more : ∀ x ∈ selection.page score limit items, decide (score a < score x) = true :=
      fun x shown => decide_eq_true ((less x shown a out).lt_of_ne (none x shown).symm)
    have many : (selection.page score limit items).length ≤ above score items a := by
      rw [← List.countP_eq_length.mpr more]
      exact (page_subperm selection score items some_).countP_le _
    omega
  -- and there is another one of that score
  obtain ⟨y, among, other, differs⟩ : ∃ y ∈ items, score y = score a ∧ y ≠ x := by
    by_cases same : a = x
    · exact ⟨b, right, tied.symm, fun again => apart (same.trans again.symm)⟩
    · exact ⟨a, left, rfl, same⟩
  have member : x ∈ items := (page_subperm selection score items some_).subset shown
  have keeps (c : α) : score (Equiv.swap x y c) = score c := by
    by_cases one : c = x
    · rw [one, Equiv.swap_apply_left, other, scored]
    · by_cases two : c = y
      · rw [two, Equiv.swap_apply_right, other, scored]
      · rw [Equiv.swap_apply_of_ne_of_ne one two]
  refine ⟨items.map (Equiv.swap x y), map_swap_perm distinct member among, ?_⟩
  rw [page_map _ keeps]
  intro same
  obtain ⟨index, here⟩ := List.mem_iff_getElem?.mp shown
  have moved : ((selection.page score limit items).map (Equiv.swap x y))[index]? = some y := by
    rw [List.getElem?_map, here, Option.map_some, Equiv.swap_apply_left]
  rw [same, here] at moved
  exact differs (Option.some.inj moved).symm

end Foundation
