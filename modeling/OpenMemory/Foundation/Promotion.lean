import Mathlib

/-!
# Promotion within a ranked list

The rows of a list have keys, and some rows name a key that should come before them. One pass
over the list puts a row of that key before each such row: one that already stands above it, or
the first one below it, which is pulled up, or a new one. The row itself is annotated and stays.

What becomes of each row is recorded. No row is lost, the rows that were not pulled up keep their
order, an annotated row comes after a row of the key it names, and a key gets a new row only if
it had none. Two lists whose rows correspond are treated alike, if the correspondence does not
identify a key that is asked for with another.
-/

namespace Foundation

/-- How rows are promoted. -/
structure Promotion (α ι : Type) where
  key : α → Option ι
  /-- The key that should come before a row. -/
  successor : α → Option ι
  annotate : α → ι → α
  /-- A new row. -/
  fresh : α → ι → α
  key_annotate : ∀ row s, key (annotate row s) = key row
  key_fresh : ∀ row s, key (fresh row s) = some s
  successor_ne : ∀ row s, successor row = some s → key row ≠ some s

namespace Promotion

/-- What became of a row, and the rows that were added. -/
inductive Entry (α ι : Type) where
  | stays (row : α)
  | marked (row : α) (s : ι)
  | pulled (row : α) (s : ι)
  | made (before : α) (s : ι)

variable {α ι β κ : Type} [DecidableEq ι] [DecidableEq κ]

section Pass

variable (p : Promotion α ι)

def Entry.row : Entry α ι → α
  | .stays row => row
  | .marked row s => p.annotate row s
  | .pulled row _ => row
  | .made before s => p.fresh before s

def isOf (s : ι) (row : α) : Bool := decide (p.key row = some s)

/-- One pass over the rows that are left, after those above them. -/
def pass (above : List α) : List α → List (Entry α ι)
  | [] => []
  | row :: rest =>
    match p.successor row with
    | none => .stays row :: pass (above ++ [row]) rest
    | some s =>
      if above.any (p.isOf s) then
        .marked row s :: pass (above ++ [p.annotate row s]) rest
      else match rest.find? (p.isOf s) with
        | some found => .pulled found s :: .marked row s ::
            pass (above ++ [found, p.annotate row s]) (rest.eraseP (p.isOf s))
        | none => .made row s :: .marked row s ::
            pass (above ++ [p.fresh row s, p.annotate row s]) rest
  termination_by rest => rest.length
  decreasing_by
    all_goals first
      | exact Nat.lt_succ_self _
      | exact Nat.lt_succ_of_le List.eraseP_sublist.length_le

/-- The list that a pass leaves. -/
def rows (entries : List (Entry α ι)) : List α := entries.map (Entry.row p)

end Pass

/-! ## What is kept -/

/-- The row of the list that an entry is about. -/
def Entry.input : Entry α ι → Option α
  | .stays row => some row
  | .marked row _ => some row
  | .pulled row _ => some row
  | .made _ _ => none

/-- The row of the list that an entry leaves at its place. -/
def Entry.kept : Entry α ι → Option α
  | .stays row => some row
  | .marked row _ => some row
  | .pulled _ _ => none
  | .made _ _ => none

def Entry.isPromotion : Entry α ι → Bool
  | .pulled _ _ => true
  | .made _ _ => true
  | _ => false

variable {p : Promotion α ι} {s : ι}

theorem perm_of_find? {rest : List α} {found : α} {q : α → Bool} (first : rest.find? q = some found) :
    rest.Perm (found :: rest.eraseP q) := by
  induction rest with
  | nil => cases first
  | cons row rest ih =>
    by_cases here : q row = true
    · rw [List.find?_cons_of_pos here] at first
      cases first
      rw [List.eraseP_cons_of_pos here]
    · rw [List.find?_cons_of_neg here] at first
      rw [List.eraseP_cons_of_neg here]
      exact ((ih first).cons row).trans (List.Perm.swap _ _ _)

theorem key_of_find? {rest : List α} {found : α} (first : rest.find? (p.isOf s) = some found) :
    p.key found = some s := by
  have held := List.find?_some first
  exact of_decide_eq_true held

/-- **No row is lost**, and none is listed twice. -/
theorem input_pass (above rest : List α) :
    ((p.pass above rest).filterMap Entry.input).Perm rest := by
  fun_induction pass p above rest with
  | case1 above => exact .nil
  | case2 above row rest none_ ih => exact ih.cons row
  | case3 above row rest s next ranked ih => exact ih.cons row
  | case4 above row rest s next unranked found first ih =>
    have order : (row :: found :: rest.eraseP (p.isOf s)).Perm (row :: rest) :=
      (perm_of_find? first).symm.cons row
    exact ((ih.cons row).cons found).trans ((List.Perm.swap _ _ _).trans order)
  | case5 above row rest s next unranked none_ ih => exact ih.cons row

/-- **The rows that are not pulled up** keep their order. -/
theorem kept_pass (above rest : List α) :
    ((p.pass above rest).filterMap Entry.kept).Sublist rest := by
  fun_induction pass p above rest with
  | case1 above => exact .slnil
  | case2 above row rest none_ ih => exact ih.cons_cons row
  | case3 above row rest s next ranked ih => exact ih.cons_cons row
  | case4 above row rest s next unranked found first ih =>
    exact (ih.trans List.eraseP_sublist).cons_cons row
  | case5 above row rest s next unranked none_ ih => exact ih.cons_cons row

/-- What an entry of a pass over some rows says of them. -/
def Entry.Sound (p : Promotion α ι) (rows : List α) : Entry α ι → Prop
  | .stays row => row ∈ rows ∧ p.successor row = none
  | .marked row s => row ∈ rows ∧ p.successor row = some s
  | .pulled row s => row ∈ rows ∧ p.key row = some s ∧ ∃ stale ∈ rows, p.successor stale = some s
  | .made stale s => stale ∈ rows ∧ p.successor stale = some s

omit [DecidableEq ι] in
theorem Entry.Sound.mono {rows more : List α} {entry : Entry α ι} (sound : entry.Sound p rows)
    (within : rows ⊆ more) : entry.Sound p more := by
  cases entry with
  | stays row => exact ⟨within sound.1, sound.2⟩
  | marked row s => exact ⟨within sound.1, sound.2⟩
  | pulled row s =>
    obtain ⟨here, key, stale, among, next⟩ := sound
    exact ⟨within here, key, stale, within among, next⟩
  | made stale s => exact ⟨within sound.1, sound.2⟩

theorem sound_pass {above rest : List α} {entry : Entry α ι} (member : entry ∈ p.pass above rest) :
    entry.Sound p rest := by
  fun_induction pass p above rest with
  | case1 above => cases member
  | case2 above row rest none_ ih =>
    rcases List.mem_cons.mp member with rfl | member
    · exact ⟨List.mem_cons_self, none_⟩
    · exact (ih member).mono (List.subset_cons_self _ _)
  | case3 above row rest s next ranked ih =>
    rcases List.mem_cons.mp member with rfl | member
    · exact ⟨List.mem_cons_self, next⟩
    · exact (ih member).mono (List.subset_cons_self _ _)
  | case4 above row rest s next unranked found first ih =>
    rcases List.mem_cons.mp member with rfl | member
    · exact ⟨List.mem_cons_of_mem _ (List.mem_of_find?_eq_some first),
        key_of_find? first, row, List.mem_cons_self, next⟩
    · rcases List.mem_cons.mp member with rfl | member
      · exact ⟨List.mem_cons_self, next⟩
      · exact (ih member).mono
          fun each among => List.mem_cons_of_mem _ (List.eraseP_sublist.subset among)
  | case5 above row rest s next unranked none_ ih =>
    rcases List.mem_cons.mp member with rfl | member
    · exact ⟨List.mem_cons_self, next⟩
    · rcases List.mem_cons.mp member with rfl | member
      · exact ⟨List.mem_cons_self, next⟩
      · exact (ih member).mono (List.subset_cons_self _ _)

/-- Among some rows is one of a key. -/
def Listed (p : Promotion α ι) (s : ι) (rows : List α) : Prop := ∃ row ∈ rows, p.key row = some s

theorem any_isOf {rows : List α} : rows.any (p.isOf s) = true ↔ p.Listed s rows := by
  rw [List.any_eq_true]
  exact exists_congr fun row => and_congr_right fun _ => decide_eq_true_iff

theorem find?_isOf {rows : List α} : rows.find? (p.isOf s) = none ↔ ¬ p.Listed s rows := by
  rw [← any_isOf, Bool.not_eq_true, List.find?_eq_none, List.any_eq_false]

/-- **An annotated row** comes after a row of the key that it names. -/
theorem listed_of_pass {above rest : List α} {before after : List (Entry α ι)} {row : α}
    (split : p.pass above rest = before ++ .marked row s :: after) :
    p.Listed s (above ++ p.rows before) := by
  fun_induction pass p above rest generalizing before with
  | case1 above => exact absurd split.symm (List.append_ne_nil_of_right_ne_nil _ nofun)
  | case2 above first rest none_ ih =>
    cases before with
    | nil => cases split
    | cons entry before =>
      obtain ⟨same, next⟩ := List.cons.inj split
      have later := ih next
      rw [List.append_assoc] at later
      rw [← same]
      exact later
  | case3 above first rest next succ ranked ih =>
    cases before with
    | nil =>
      cases split
      rw [rows, List.map_nil, List.append_nil]
      exact any_isOf.mp ranked
    | cons entry before =>
      obtain ⟨same, next⟩ := List.cons.inj split
      have later := ih next
      rw [List.append_assoc] at later
      rw [← same]
      exact later
  | case4 above first rest next succ unranked found here ih =>
    cases before with
    | nil => cases split
    | cons entry before =>
      obtain ⟨same, rest⟩ := List.cons.inj split
      cases before with
      | nil =>
        cases rest
        rw [← same]
        exact ⟨found, List.mem_append_right _ List.mem_cons_self, key_of_find? here⟩
      | cons other before =>
        obtain ⟨stale, rest⟩ := List.cons.inj rest
        have later := ih rest
        rw [List.append_assoc] at later
        rw [← same, ← stale]
        exact later
  | case5 above first rest next succ unranked none_ ih =>
    cases before with
    | nil => cases split
    | cons entry before =>
      obtain ⟨same, rest⟩ := List.cons.inj split
      cases before with
      | nil =>
        cases rest
        rw [← same]
        exact ⟨_, List.mem_append_right _ List.mem_cons_self, p.key_fresh _ _⟩
      | cons other before =>
        obtain ⟨stale, rest⟩ := List.cons.inj rest
        have later := ih rest
        rw [List.append_assoc] at later
        rw [← same, ← stale]
        exact later

/-! ## How often a key is listed -/

/-- How many rows have a key. -/
def times (p : Promotion α ι) (s : ι) (rows : List α) : Nat := rows.countP (p.isOf s)

theorem times_append (left right : List α) :
    p.times s (left ++ right) = p.times s left + p.times s right :=
  List.countP_append

theorem times_eq_zero {rows : List α} : p.times s rows = 0 ↔ ¬ p.Listed s rows := by
  rw [times, List.countP_eq_zero, ← any_isOf, Bool.not_eq_true, List.any_eq_false]

theorem times_pos {rows : List α} : 0 < p.times s rows ↔ p.Listed s rows := by
  rw [Nat.pos_iff_ne_zero, Ne, times_eq_zero, not_not]

theorem times_annotate (row : α) (next : ι) : p.times s [p.annotate row next] = p.times s [row] := by
  unfold times isOf
  rw [List.countP_singleton, List.countP_singleton, p.key_annotate]

theorem times_cons (row : α) (rest : List α) :
    p.times s (row :: rest) = p.times s [row] + p.times s rest :=
  times_append [row] rest

theorem times_perm {rows more : List α} (order : rows.Perm more) :
    p.times s rows = p.times s more :=
  order.countP_eq _

/-- **A key gets a new row** only if it had none. -/
theorem times_pass (above rest : List α) :
    p.times s (above ++ p.rows (p.pass above rest)) = p.times s (above ++ rest) ∨
      p.times s (above ++ rest) = 0 ∧ p.times s (above ++ p.rows (p.pass above rest)) = 1 := by
  fun_induction pass p above rest with
  | case1 above => exact .inl rfl
  | case2 above row rest none_ ih =>
    rw [List.append_assoc, List.append_assoc] at ih
    exact ih
  | case3 above row rest next succ ranked ih =>
    have same : p.times s (above ++ [p.annotate row next] ++ rest) =
        p.times s (above ++ row :: rest) := by
      rw [List.append_assoc, times_append, times_append, times_append, times_annotate,
        times_cons row rest]
    rw [same, List.append_assoc] at ih
    exact ih
  | case4 above row rest next succ unranked found first ih =>
    have same : p.times s (above ++ [found, p.annotate row next] ++ rest.eraseP (p.isOf next)) =
        p.times s (above ++ row :: rest) := by
      have order := p.times_perm (s := s) (perm_of_find? first)
      rw [times_cons] at order
      rw [List.append_assoc, times_append, times_append, times_append, times_cons found,
        times_annotate, times_cons row rest, order]
      ring
    rw [same, List.append_assoc] at ih
    exact ih
  | case5 above row rest next succ unranked none_ ih =>
    have more : p.times s (above ++ [p.fresh row next, p.annotate row next] ++ rest) =
        p.times s (above ++ row :: rest) + if next = s then 1 else 0 := by
      have own : p.times s [p.fresh row next] = if next = s then 1 else 0 := by
        unfold times isOf
        rw [List.countP_singleton, p.key_fresh]
        by_cases here : next = s
        · rw [if_pos here, here, if_pos (decide_eq_true rfl)]
        · rw [if_neg here, if_neg]
          rw [decide_eq_true_eq, Option.some_inj]
          exact here
      rw [List.append_assoc, times_append, times_append, times_append, times_cons,
        times_annotate, times_cons row rest, own]
      ring
    rw [more, List.append_assoc] at ih
    by_cases here : next = s
    · subst here
      have absent : p.times next (above ++ row :: rest) = 0 := by
        rw [times_append, times_cons, times_eq_zero.mpr (mt any_isOf.mpr unranked),
          times_eq_zero.mpr (find?_isOf.mp none_), Nat.zero_add, Nat.add_zero, times_eq_zero]
        rintro ⟨other, member, key⟩
        rw [List.mem_singleton.mp member] at key
        exact p.successor_ne row next succ key
      rw [absent, if_pos rfl] at ih
      refine .inr ⟨absent, ?_⟩
      rcases ih with once | ⟨impossible, -⟩
      · exact once
      · cases impossible
    · rw [if_neg here, Nat.add_zero] at ih
      exact ih

/-! ## Lists that correspond -/

section Correspondence

variable {q : Promotion β κ} {f : α → β} {g : ι → κ}

/-- The rows of one list are treated as those of another are. -/
structure Corresponds (p : Promotion α ι) (q : Promotion β κ) (f : α → β) (g : ι → κ) : Prop where
  key : ∀ row, q.key (f row) = (p.key row).map g
  annotate : ∀ row s, f (p.annotate row s) = q.annotate (f row) (g s)
  fresh : ∀ row s, f (p.fresh row s) = q.fresh (f row) (g s)

/-- A key that a row asks for is not identified with another one. -/
structure Separates (p : Promotion α ι) (g : ι → κ) (known : ι → Prop) (rows : List α) : Prop where
  key : ∀ row ∈ rows, ∀ s, p.key row = some s → known s
  successor : ∀ row ∈ rows, ∀ s, p.successor row = some s → known s
  apart : ∀ row ∈ rows, ∀ s, p.successor row = some s → ∀ other, known other → g other = g s →
    other = s

omit [DecidableEq ι] [DecidableEq κ] in
theorem Separates.mono {known : ι → Prop} {rows more : List α} (separates : p.Separates g known more)
    (within : rows ⊆ more) : p.Separates g known rows where
  key row member := separates.key row (within member)
  successor row member := separates.successor row (within member)
  apart row member := separates.apart row (within member)

theorem Corresponds.isOf_eq (same : Corresponds p q f g) {known : ι → Prop} {row : α}
    (held : ∀ other, p.key row = some other → known other)
    (apart : ∀ other, known other → g other = g s → other = s) :
    q.isOf (g s) (f row) = p.isOf s row := by
  unfold isOf
  rw [same.key, decide_eq_decide]
  cases key : p.key row with
  | none => exact iff_of_false nofun nofun
  | some other =>
    rw [Option.map_some, Option.some_inj, Option.some_inj]
    exact ⟨apart other (held other key), congrArg g⟩

omit [DecidableEq ι] in
theorem eraseP_congr {first second : α → Bool} {rows : List α}
    (agree : ∀ row ∈ rows, first row = second row) : rows.eraseP first = rows.eraseP second := by
  induction rows with
  | nil => rfl
  | cons row rest ih =>
    rw [List.eraseP_cons, List.eraseP_cons, agree row List.mem_cons_self,
      ih fun other member => agree other (List.mem_cons_of_mem _ member)]

section Lookups

variable {known : ι → Prop} {rows : List α}

theorem Corresponds.any_map (same : Corresponds p q f g)
    (held : ∀ row ∈ rows, ∀ other, p.key row = some other → known other)
    (apart : ∀ other, known other → g other = g s → other = s) :
    (rows.map f).any (q.isOf (g s)) = rows.any (p.isOf s) := by
  rw [Bool.eq_iff_iff, List.any_eq_true, List.any_eq_true]
  constructor
  · rintro ⟨_, among, is⟩
    obtain ⟨row, member, rfl⟩ := List.mem_map.mp among
    rw [same.isOf_eq (held row member) apart] at is
    exact ⟨row, member, is⟩
  · rintro ⟨row, member, is⟩
    refine ⟨f row, List.mem_map_of_mem member, ?_⟩
    rw [same.isOf_eq (held row member) apart]
    exact is

theorem Corresponds.find?_map (same : Corresponds p q f g)
    (held : ∀ row ∈ rows, ∀ other, p.key row = some other → known other)
    (apart : ∀ other, known other → g other = g s → other = s) :
    (rows.map f).find? (q.isOf (g s)) = (rows.find? (p.isOf s)).map f := by
  rw [List.find?_map]
  congr 1
  exact List.find?_congr fun row member => same.isOf_eq (held row member) apart

theorem Corresponds.eraseP_map (same : Corresponds p q f g)
    (held : ∀ row ∈ rows, ∀ other, p.key row = some other → known other)
    (apart : ∀ other, known other → g other = g s → other = s) :
    (rows.map f).eraseP (q.isOf (g s)) = (rows.eraseP (p.isOf s)).map f := by
  rw [List.eraseP_map]
  congr 1
  exact eraseP_congr fun row member => same.isOf_eq (held row member) apart

end Lookups

/-- **Corresponding lists** are promoted alike. -/
theorem Corresponds.rows_pass (same : Corresponds p q f g) {known : ι → Prop} {above rest : List α}
    (aboveKnown : ∀ row ∈ above, ∀ s, p.key row = some s → known s)
    (separates : p.Separates g known rest)
    (successors : ∀ row ∈ rest, q.successor (f row) = (p.successor row).map g) :
    q.rows (q.pass (above.map f) (rest.map f)) = (p.rows (p.pass above rest)).map f := by
  have grown {above more : List α} (old : ∀ row ∈ above, ∀ s, p.key row = some s → known s)
      (new : ∀ row ∈ more, ∀ s, p.key row = some s → known s) :
      ∀ row ∈ above ++ more, ∀ s, p.key row = some s → known s := by
    intro row member
    rcases List.mem_append.mp member with member | member
    · exact old row member
    · exact new row member
  fun_induction pass p above rest with
  | case1 above =>
    rw [List.map_nil, pass]
    rfl
  | case2 above row rest none_ ih =>
    have next := successors row List.mem_cons_self
    rw [none_] at next
    have later := ih
      (grown aboveKnown fun other member => by
        rw [List.mem_singleton.mp member]
        exact separates.key row List.mem_cons_self)
      (separates.mono (List.subset_cons_self _ _))
      (List.forall_mem_cons.mp successors).2
    rw [List.map_append] at later
    rw [List.map_cons, pass, next]
    exact congrArg (f row :: ·) later
  | case3 above row rest s succ ranked ih =>
    have next := successors row List.mem_cons_self
    rw [succ] at next
    have apart := separates.apart row List.mem_cons_self s succ
    have later := ih
      (grown aboveKnown fun other member => by
        rw [List.mem_singleton.mp member, p.key_annotate]
        exact separates.key row List.mem_cons_self)
      (separates.mono (List.subset_cons_self _ _))
      (List.forall_mem_cons.mp successors).2
    rw [List.map_append, List.map_singleton, same.annotate] at later
    rw [List.map_cons, pass, next]
    dsimp only [Option.map_some]
    rw [same.any_map aboveKnown apart, if_pos ranked]
    refine (congrArg (q.annotate (f row) (g s) :: ·) later).trans ?_
    rw [← same.annotate]
    rfl
  | case4 above row rest s succ unranked found first ih =>
    have next := successors row List.mem_cons_self
    rw [succ] at next
    have apart := separates.apart row List.mem_cons_self s succ
    have below := (separates.mono (List.subset_cons_self _ _)).key
    have within : rest.eraseP (p.isOf s) ⊆ row :: rest := fun other member =>
      List.mem_cons_of_mem _ (List.eraseP_sublist.subset member)
    have later := ih
      (grown aboveKnown fun other member => by
        rcases List.mem_cons.mp member with rfl | member
        · exact below other (List.mem_of_find?_eq_some first)
        · rw [List.mem_singleton.mp member, p.key_annotate]
          exact separates.key row List.mem_cons_self)
      (separates.mono within) fun other member => successors other (within member)
    rw [List.map_append, List.map_cons, List.map_singleton, same.annotate] at later
    rw [List.map_cons, pass, next]
    dsimp only [Option.map_some]
    rw [same.any_map aboveKnown apart, if_neg unranked, same.find?_map below apart, first,
      same.eraseP_map below apart]
    refine (congrArg (fun rows => f found :: q.annotate (f row) (g s) :: rows) later).trans ?_
    rw [← same.annotate]
    rfl
  | case5 above row rest s succ unranked none_ ih =>
    have next := successors row List.mem_cons_self
    rw [succ] at next
    have apart := separates.apart row List.mem_cons_self s succ
    have below := (separates.mono (List.subset_cons_self _ _)).key
    have later := ih
      (grown aboveKnown fun other member => by
        rcases List.mem_cons.mp member with rfl | member
        · intro k key
          rw [p.key_fresh] at key
          cases key
          exact separates.successor row List.mem_cons_self s succ
        · rw [List.mem_singleton.mp member, p.key_annotate]
          exact separates.key row List.mem_cons_self)
      (separates.mono (List.subset_cons_self _ _))
      (List.forall_mem_cons.mp successors).2
    rw [List.map_append, List.map_cons, List.map_singleton, same.annotate, same.fresh] at later
    rw [List.map_cons, pass, next]
    dsimp only [Option.map_some]
    rw [same.any_map aboveKnown apart, if_neg unranked, same.find?_map below apart, none_]
    refine (congrArg (fun rows =>
      q.fresh (f row) (g s) :: q.annotate (f row) (g s) :: rows) later).trans ?_
    rw [← same.annotate, ← same.fresh]
    rfl

end Correspondence

end Promotion

end Foundation
