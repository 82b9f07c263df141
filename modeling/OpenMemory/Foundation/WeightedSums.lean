import Mathlib

/-!
# Sums under falling weights

A sequence is dominated by another when no sum of its first terms is larger. Under weights that
fall and stay positive, the weighted sum of a dominated sequence is not larger either, and it is
the same only where the sequences are.

The greatest elements of a list, in falling order, dominate every choice of its elements.
-/

namespace Foundation

open Finset

section Weighted

variable {K : Type} [CommRing K] [LinearOrder K] [IsStrictOrderedRing K] {w a b d : ℕ → K} {k : ℕ}

/-- Weights that fall and stay positive. -/
structure FallingWeights (w : ℕ → K) : Prop where
  positive : ∀ i, 0 < w i
  falls : ∀ i, w (i + 1) < w i

/-- A weighted sum is not below the whole sum under the last weight, where no sum of first terms
is negative. -/
theorem FallingWeights.last_le (falling : FallingWeights w)
    (above : ∀ j ≤ k + 1, 0 ≤ ∑ i ∈ range j, d i) :
    w k * ∑ i ∈ range (k + 1), d i ≤ ∑ i ∈ range (k + 1), w i * d i := by
  induction k with
  | zero => simp
  | succ k ih =>
    have before := ih fun j small => above j (small.trans (Nat.le_succ _))
    have least := above (k + 1) (Nat.le_succ _)
    have drop : 0 ≤ (w k - w (k + 1)) * ∑ i ∈ range (k + 1), d i :=
      mul_nonneg (sub_nonneg.mpr (falling.falls k).le) least
    rw [sum_range_succ, sum_range_succ (fun i => w i * d i)]
    linarith

theorem FallingWeights.sum_nonneg (falling : FallingWeights w)
    (above : ∀ j ≤ k, 0 ≤ ∑ i ∈ range j, d i) : 0 ≤ ∑ i ∈ range k, w i * d i := by
  cases k with
  | zero => simp
  | succ k =>
    exact (mul_nonneg (falling.positive k).le (above (k + 1) le_rfl)).trans (falling.last_le above)

/-- A weighted sum that vanishes has only sums of first terms that vanish. -/
theorem FallingWeights.prefixes_zero (falling : FallingWeights w)
    (above : ∀ j ≤ k, 0 ≤ ∑ i ∈ range j, d i) (zero : ∑ i ∈ range k, w i * d i = 0) :
    ∀ j ≤ k, ∑ i ∈ range j, d i = 0 := by
  induction k with
  | zero =>
    intro j small
    rw [Nat.le_zero.mp small, range_zero, sum_empty]
  | succ k ih =>
    have aboveBefore : ∀ j ≤ k, 0 ≤ ∑ i ∈ range j, d i := fun j small =>
      above j (small.trans (Nat.le_succ _))
    have whole : ∑ i ∈ range (k + 1), d i = 0 := by
      refine le_antisymm ?_ (above (k + 1) le_rfl)
      have last := falling.last_le above
      rw [zero] at last
      exact nonpos_of_mul_nonpos_right last (falling.positive k)
    -- what the first terms sum up to under the weights, they sum up to under the last weight
    have rest : ∑ i ∈ range k, w i * d i = w k * ∑ i ∈ range k, d i := by
      rw [sum_range_succ] at zero whole
      rw [eq_neg_of_add_eq_zero_left zero, eq_neg_of_add_eq_zero_left whole]
      ring
    have before : ∑ i ∈ range k, w i * d i = 0 := by
      cases k with
      | zero => simp
      | succ m =>
        have last := falling.last_le aboveBefore
        rw [rest] at last
        have drop : (w m - w (m + 1)) * ∑ i ∈ range (m + 1), d i ≤ 0 := by
          rw [sub_mul]
          exact sub_nonpos.mpr last
        have nothing := nonpos_of_mul_nonpos_right drop (sub_pos.mpr (falling.falls m))
        rw [rest, le_antisymm nothing (aboveBefore (m + 1) le_rfl), mul_zero]
    intro j small
    rcases Nat.lt_or_eq_of_le small with less | rfl
    · exact ih aboveBefore before j (Nat.le_of_lt_succ less)
    · exact whole

/-- **A dominated sequence has the smaller weighted sum**, and the same only where it is the
same. -/
theorem FallingWeights.sum_le_and_eq_iff (falling : FallingWeights w)
    (dominated : ∀ j ≤ k, ∑ i ∈ range j, a i ≤ ∑ i ∈ range j, b i) :
    ∑ i ∈ range k, w i * a i ≤ ∑ i ∈ range k, w i * b i ∧
      (∑ i ∈ range k, w i * a i = ∑ i ∈ range k, w i * b i ↔ ∀ i < k, a i = b i) := by
  have above : ∀ j ≤ k, 0 ≤ ∑ i ∈ range j, (b i - a i) := by
    intro j small
    rw [sum_sub_distrib]
    exact sub_nonneg.mpr (dominated j small)
  have apart : ∑ i ∈ range k, w i * (b i - a i) =
      ∑ i ∈ range k, w i * b i - ∑ i ∈ range k, w i * a i := by
    simp only [mul_sub, sum_sub_distrib]
  refine ⟨sub_nonneg.mp (apart ▸ falling.sum_nonneg above), ?_, fun same => ?_⟩
  · intro same i small
    rw [same, sub_self] at apart
    have zero := falling.prefixes_zero above apart
    have next := zero (i + 1) small
    rw [sum_range_succ, zero i small.le, zero_add] at next
    exact (sub_eq_zero.mp next).symm
  · exact sum_congr rfl fun i listed => by rw [same i (mem_range.mp listed)]

end Weighted

/-! ## The greatest elements of a list -/

section Greatest

variable {α K : Type} [DecidableEq α] [AddCommMonoid K] [LinearOrder K] [IsOrderedAddMonoid K]
  {f : α → K}

omit [AddCommMonoid K] [IsOrderedAddMonoid K] in
/-- Some element of a choice from a list is not above the head, and the others are chosen from
the tail. -/
theorem exists_erase_le_tail {head : α} {tail : List α} {chosen : Multiset α}
    (greatest : ∀ b ∈ tail, f b ≤ f head) (within : chosen ≤ (head :: tail : List α))
    (filled : chosen ≠ 0) : ∃ b ∈ chosen, f b ≤ f head ∧ chosen.erase b ≤ (tail : List α) := by
  rw [← Multiset.cons_coe] at within
  by_cases member : head ∈ chosen
  · exact ⟨head, member, le_rfl, Multiset.erase_le_iff_le_cons.mpr within⟩
  · obtain ⟨b, listed⟩ := Multiset.exists_mem_of_ne_zero filled
    have inTail := (Multiset.le_cons_of_notMem member).mp within
    exact ⟨b, listed, greatest b (Multiset.mem_coe.mp (Multiset.mem_of_le inTail listed)),
      (Multiset.erase_le b chosen).trans inTail⟩

/-- **The first elements of a falling list** sum up to no less than any choice of as many. -/
theorem sum_le_sum_take {elements : List α} {chosen : Multiset α} {n : ℕ}
    (falling : elements.Pairwise fun a b => f b ≤ f a) (nonneg : ∀ a ∈ elements, 0 ≤ f a)
    (within : chosen ≤ (elements : Multiset α)) (few : chosen.card ≤ n) :
    (chosen.map f).sum ≤ ((elements.take n).map f).sum := by
  induction elements generalizing chosen n with
  | nil =>
    have none : chosen = 0 := Multiset.le_zero.mp within
    subst none
    simp
  | cons head tail ih =>
    by_cases filled : chosen = 0
    · subst filled
      rw [Multiset.map_zero, Multiset.sum_zero]
      exact List.sum_nonneg fun value listed => by
        obtain ⟨a, member, rfl⟩ := List.mem_map.mp listed
        exact nonneg a (List.mem_of_mem_take member)
    · rw [List.pairwise_cons] at falling
      obtain ⟨b, listed, below, rest⟩ := exists_erase_le_tail falling.1 within filled
      cases n with
      | zero =>
        exact absurd (Multiset.card_eq_zero.mp (Nat.le_zero.mp few)) filled
      | succ n =>
        have fewer : (chosen.erase b).card ≤ n := by
          rw [Multiset.card_erase_of_mem listed]
          exact Nat.pred_le_of_le_succ few
        have others := ih falling.2 (List.forall_mem_cons.mp nonneg).2 rest fewer
        rw [← Multiset.cons_erase listed, Multiset.map_cons, Multiset.sum_cons,
          List.take_succ_cons, List.map_cons, List.sum_cons]
        exact add_le_add below others

end Greatest

end Foundation
