import Mathlib

/-!
# Greedy grouping

Walk through a list; each element that was not taken yet takes the later ones that
are near it. Nearness need not be transitive, or even symmetric, so the groups
depend on the order of the list.

The groups part the list: every element heads one group or is taken into one, and
not both. What is taken is near the head that took it, and no head is near a head
before it.
-/

namespace Foundation

universe u

variable {α : Type u} [DecidableEq α] {near : α → α → Bool}

/-- The groups of a list, of whose elements those in `gone` were taken before. -/
def absorb (near : α → α → Bool) : List α → List α → List (α × List α)
  | _, [] => []
  | gone, first :: rest =>
    if first ∈ gone then absorb near gone rest
    else
      let taken := rest.filter fun other => other ∉ gone ∧ near first other = true
      (first, taken) :: absorb near (taken ++ gone) rest

namespace Absorption

/-- The elements that head a group. -/
def heads (groups : List (α × List α)) : List α := groups.map Prod.fst

/-- The elements that were taken into a group. -/
def absorbed (groups : List (α × List α)) : List α := groups.flatMap Prod.snd

variable {gone list : List α} {head element : α} {taken : List α}

omit [DecidableEq α] in
theorem mem_absorbed {groups : List (α × List α)} :
    element ∈ absorbed groups ↔ ∃ group ∈ groups, element ∈ group.2 := List.mem_flatMap

theorem absorb_cons {first : α} {rest : List α} : absorb near gone (first :: rest) =
    if first ∈ gone then absorb near gone rest
    else
      let taken := rest.filter fun other => other ∉ gone ∧ near first other = true
      (first, taken) :: absorb near (taken ++ gone) rest := rfl

theorem heads_sublist : (heads (absorb near gone list)).Sublist list := by
  induction list generalizing gone with
  | nil => exact List.Sublist.refl _
  | cons first rest ih =>
    rw [absorb_cons]
    split
    · exact ih.cons first
    · exact ih.cons_cons first

theorem heads_not_gone (member : element ∈ heads (absorb near gone list)) : element ∉ gone := by
  induction list generalizing gone with
  | nil => cases member
  | cons first rest ih =>
    rw [absorb_cons] at member
    split at member
    · exact ih member
    · rename_i fresh
      rcases List.mem_cons.mp member with rfl | later
      · exact fresh
      · exact fun here => ih later (List.mem_append_right _ here)

theorem absorbed_not_gone (member : element ∈ absorbed (absorb near gone list)) :
    element ∈ list ∧ element ∉ gone := by
  induction list generalizing gone with
  | nil => cases member
  | cons first rest ih =>
    rw [absorb_cons] at member
    split at member
    · exact ⟨List.mem_cons_of_mem _ (ih member).1, (ih member).2⟩
    · rcases List.mem_append.mp member with now | later
      · obtain ⟨among, chosen⟩ := List.mem_filter.mp now
        exact ⟨List.mem_cons_of_mem _ among, (of_decide_eq_true chosen).1⟩
      · obtain ⟨among, fresh⟩ := ih later
        exact ⟨List.mem_cons_of_mem _ among, fun here => fresh (List.mem_append_right _ here)⟩

/-- **What was taken is near its head.** -/
theorem near_of_mem (group : (head, taken) ∈ absorb near gone list) (member : element ∈ taken) :
    near head element = true := by
  induction list generalizing gone with
  | nil => cases group
  | cons first rest ih =>
    rw [absorb_cons] at group
    split at group
    · exact ih group
    · rcases List.mem_cons.mp group with same | later
      · cases same
        exact (of_decide_eq_true (List.mem_filter.mp member).2).2
      · exact ih later

/-- **Every element heads a group or was taken into one.** -/
theorem head_or_absorbed (member : element ∈ list) (fresh : element ∉ gone) :
    element ∈ heads (absorb near gone list) ∨ element ∈ absorbed (absorb near gone list) := by
  induction list generalizing gone with
  | nil => cases member
  | cons first rest ih =>
    rw [absorb_cons]
    split
    · rename_i taken
      refine ih ((List.mem_cons.mp member).resolve_left ?_) fresh
      rintro rfl
      exact fresh taken
    · rcases List.mem_cons.mp member with rfl | later
      · exact .inl List.mem_cons_self
      · by_cases now : element ∈ rest.filter fun other => other ∉ gone ∧ near first other = true
        · exact .inr (List.mem_append_left _ now)
        · rcases ih later (fun here => (List.mem_append.mp here).elim now fresh) with head | body
          · exact .inl (List.mem_cons_of_mem _ head)
          · exact .inr (List.mem_append_right _ body)

/-- **Nothing is taken twice.** -/
theorem absorbed_nodup (distinct : list.Nodup) : (absorbed (absorb near gone list)).Nodup := by
  induction list generalizing gone with
  | nil => exact List.nodup_nil
  | cons first rest ih =>
    have distinct := (List.nodup_cons.mp distinct).2
    rw [absorb_cons]
    split
    · exact ih distinct
    · refine List.nodup_append.mpr ⟨distinct.filter _, ih distinct, ?_⟩
      rintro one now other later rfl
      exact (absorbed_not_gone later).2 (List.mem_append_left _ now)

/-- **A head is not taken.** -/
theorem head_not_absorbed (distinct : list.Nodup)
    (member : element ∈ heads (absorb near gone list)) :
    element ∉ absorbed (absorb near gone list) := by
  induction list generalizing gone with
  | nil => cases member
  | cons first rest ih =>
    obtain ⟨absent, distinct⟩ := List.nodup_cons.mp distinct
    rw [absorb_cons] at member ⊢
    split at member
    · rename_i taken
      rw [if_pos taken]
      exact ih distinct member
    · rename_i fresh
      rw [if_neg fresh]
      intro body
      rcases List.mem_cons.mp member with rfl | head
      · rcases List.mem_append.mp body with now | later
        · exact absent (List.mem_filter.mp now).1
        · exact absent (absorbed_not_gone later).1
      · rcases List.mem_append.mp body with now | later
        · exact heads_not_gone head (List.mem_append_left _ now)
        · exact ih distinct head later

/-- **No head is near a head before it.** -/
theorem heads_apart : (heads (absorb near gone list)).Pairwise fun first later =>
    near first later = false := by
  induction list generalizing gone with
  | nil => exact List.Pairwise.nil
  | cons first rest ih =>
    rw [absorb_cons]
    split
    · exact ih
    · refine List.pairwise_cons.mpr ⟨fun later head => ?_, ih⟩
      have fresh := heads_not_gone head
      have among := heads_sublist.subset head
      rw [List.mem_append, not_or, List.mem_filter, not_and] at fresh
      have far := fresh.1 among
      rw [decide_eq_true_eq, not_and] at far
      simpa using far fresh.2

end Absorption

end Foundation
