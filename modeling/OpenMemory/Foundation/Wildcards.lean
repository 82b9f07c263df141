import Mathlib

/-!
# Wildcard patterns

A pattern is a word in which one letter, `any`, stands for any letter and another, `star`, for
any word. What a star may stand for can be restricted: `ReadsAs free` is the language in which a
star stands for `skipped` before `rest` only where `free skipped rest`. A pattern that is read
letter by letter keeps its place: a reading that starts later does not get ahead of it
(`ReadsAs.passes`), which is why a search from left to right may forget its earlier stars.
-/

namespace Foundation

universe u

section Wildcards

variable {α : Type u} {star any : α} {free : List α → List α → Prop}

variable (star any free) in
/-- The words of a pattern, for stars that are restricted. -/
inductive ReadsAs : List α → List α → Prop
  | nil : ReadsAs [] []
  | skip {pattern skipped rest : List α} : free skipped rest → ReadsAs pattern rest →
      ReadsAs (star :: pattern) (skipped ++ rest)
  | any {pattern rest : List α} (letter : α) : ReadsAs pattern rest →
      ReadsAs (any :: pattern) (letter :: rest)
  | letter {letter : α} {pattern rest : List α} : letter ≠ star → ReadsAs pattern rest →
      ReadsAs (letter :: pattern) (letter :: rest)

/-- A pattern is read somewhere in a word. -/
def ReadsIn (star any : α) (free : List α → List α → Prop) (pattern word : List α) : Prop :=
  ∃ rest, rest <:+ word ∧ ReadsAs star any free pattern rest

/-- A letter of a pattern stands for this letter alone. -/
def Fits (any wanted found : α) : Prop := wanted = any ∨ wanted = found

theorem ReadsAs.mono {other : List α → List α → Prop} {pattern word : List α}
    (weaker : ∀ skipped rest, free skipped rest → other skipped rest)
    (reads : ReadsAs star any free pattern word) : ReadsAs star any other pattern word := by
  induction reads with
  | nil => exact .nil
  | skip allowed _ ih => exact .skip (weaker _ _ allowed) ih
  | any letter _ ih => exact .any letter ih
  | letter plain _ ih => exact .letter plain ih

theorem readsIn_iff {pattern word : List α} : ReadsIn star any free pattern word ↔
    ReadsAs star any free pattern word ∨ ReadsIn star any free pattern word.tail := by
  constructor
  · rintro ⟨rest, later, reads⟩
    rcases word with _ | ⟨letter, word⟩
    · exact .inl (List.suffix_nil.mp later ▸ reads)
    · rcases List.suffix_cons_iff.mp later with rfl | later
      · exact .inl reads
      · exact .inr ⟨rest, later, reads⟩
  · rintro (reads | ⟨rest, later, reads⟩)
    · exact ⟨word, List.suffix_rfl, reads⟩
    · exact ⟨rest, later.trans (List.tail_suffix word), reads⟩

/-- The empty word is read by stars alone. -/
theorem reads_nil_iff {pattern : List α} (empty : free [] []) :
    ReadsAs star any free pattern [] ↔ ∀ letter ∈ pattern, letter = star := by
  constructor
  · intro reads
    generalize same : ([] : List α) = word at reads
    induction reads with
    | nil => simp
    | skip _ _ ih => simpa using ih (List.append_eq_nil_iff.mp same.symm).2.symm
    | any | letter => cases same
  · intro stars
    induction pattern with
    | nil => exact .nil
    | cons letter pattern ih =>
      obtain ⟨rfl, stars⟩ := List.forall_mem_cons.mp stars
      exact @ReadsAs.skip _ _ _ _ pattern [] [] empty (ih stars)

/-- At a plain letter there is nothing to choose. -/
theorem reads_cons_iff {wanted found : α} {pattern rest : List α} (plain : wanted ≠ star) :
    ReadsAs star any free (wanted :: pattern) (found :: rest) ↔
      Fits any wanted found ∧ ReadsAs star any free pattern rest := by
  constructor
  · intro reads
    generalize same : found :: rest = word at reads
    cases reads with
    | skip => exact absurd rfl plain
    | any => exact ⟨.inl rfl, by cases same; assumption⟩
    | letter => cases same; exact ⟨.inr rfl, by assumption⟩
  · rintro ⟨rfl | rfl, reads⟩
    · exact .any found reads
    · exact .letter plain reads

theorem reads_star_iff {pattern word : List α} (distinct : star ≠ any) :
    ReadsAs star any free (star :: pattern) word ↔
      ∃ skipped rest, word = skipped ++ rest ∧ free skipped rest ∧
        ReadsAs star any free pattern rest := by
  constructor
  · intro reads
    generalize same : star :: pattern = stars at reads
    cases reads with
    | nil => cases same
    | skip allowed reads => cases same; exact ⟨_, _, rfl, allowed, reads⟩
    | any => cases same; exact absurd rfl distinct
    | letter plain => cases same; exact absurd rfl plain
  · rintro ⟨skipped, rest, rfl, allowed, reads⟩
    exact .skip allowed reads

theorem ReadsIn.of_star {pattern word : List α} (distinct : star ≠ any)
    (reads : ReadsIn star any free (star :: pattern) word) :
    ReadsIn star any free pattern word := by
  obtain ⟨rest, later, reads⟩ := reads
  obtain ⟨skipped, after, rfl, _, reads⟩ := (reads_star_iff distinct).mp reads
  exact ⟨after, (List.suffix_append _ _).trans later, reads⟩

variable (star) in
/-- A star that is met at a star stands for it alone. -/
def Alone (skipped rest : List α) : Prop :=
  ∀ after, skipped ++ rest = star :: after → skipped = [star]

theorem reads_alone_star {pattern word : List α} (distinct : star ≠ any) :
    ReadsAs star any (Alone star) (star :: pattern) (star :: word) ↔
      ReadsAs star any (Alone star) pattern word := by
  rw [reads_star_iff distinct]
  constructor
  · rintro ⟨skipped, rest, same, alone, reads⟩
    obtain rfl := alone _ same.symm
    exact (List.cons.inj same).2 ▸ reads
  · exact fun reads => ⟨[star], word, rfl, fun _ _ => rfl, reads⟩

/-- At another letter a star stands for any word. -/
theorem reads_alone_other {letter : α} {pattern word : List α} (distinct : star ≠ any)
    (other : letter ≠ star) : ReadsAs star any (Alone star) (star :: pattern) (letter :: word) ↔
      ReadsIn star any (Alone star) pattern (letter :: word) := by
  rw [reads_star_iff distinct]
  constructor
  · rintro ⟨skipped, rest, same, _, reads⟩
    exact ⟨rest, same ▸ List.suffix_append _ _, reads⟩
  · rintro ⟨rest, ⟨skipped, same⟩, reads⟩
    refine ⟨skipped, rest, same.symm, fun after starred => ?_, reads⟩
    exact absurd (List.cons.inj (same.symm.trans starred)).1 other

/-- **A later reading does not get ahead.** Where a part of a pattern stands letter by letter
for a part of the word, every reading from there on reaches the end of both parts. -/
theorem ReadsAs.passes {pattern tail part word rest : List α} (distinct : star ≠ any)
    (fits : List.Forall₂ (Fits any) pattern part) (later : rest <:+ part ++ word)
    (reads : ReadsAs star any (Alone star) (pattern ++ tail) rest) :
    ReadsIn star any (Alone star) tail word := by
  induction fits generalizing rest with
  | nil => exact ⟨rest, later, reads⟩
  | @cons wanted found pattern part fit fits ih =>
    rw [List.cons_append] at reads later
    rcases List.suffix_cons_iff.mp later with rfl | later
    · by_cases star_ : wanted = star
      · subst star_
        obtain rfl := fit.resolve_left distinct
        exact ih List.suffix_rfl ((reads_alone_star distinct).mp reads)
      · exact ih List.suffix_rfl ((reads_cons_iff star_).mp reads).2
    · generalize same : wanted :: (pattern ++ tail) = whole at reads
      cases reads with
      | nil => cases same
      | skip _ reads =>
        cases same
        exact ih ((List.suffix_append _ _).trans later) reads
      | any | letter =>
        cases same
        exact ih ((List.suffix_cons _ _).trans later) (by assumption)

end Wildcards

end Foundation
