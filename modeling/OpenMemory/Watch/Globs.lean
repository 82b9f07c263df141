import OpenMemory.Foundation.ByteCodec
import OpenMemory.Foundation.Wildcards

/-!
# Ignored file names

A watched file is ignored where a small glob matches its name. The matcher goes from left to
right, remembers the last star and comes back to it. It asks first whether the byte of the
pattern is the byte of the name, so a star that meets a star stands for it alone: the matcher
decides that language (`matchesSimpleGlob_iff`) and misses names with stars (`glob_exact_iff`).
-/

namespace OpenMemory.Watch

open Foundation

/-! ## The matcher -/

/-- The byte `*`. -/
def star : UInt8 := 42

/-- The byte `?`. -/
def mark : UInt8 := 63

/-- The four indices of the loop. What the last star stands for ends before the next byte. -/
structure GlobCursor where
  patIdx : Nat := 0
  nameIdx : Nat := 0
  starIdx : Option Nat := none
  starMatchIdx : Nat := 0
  behind : starMatchIdx ≤ nameIdx := by omega

/-- The loop over the name: the place in the pattern that it ends at, or none where it
returns. -/
def scan (pattern name : Bytes) (c : GlobCursor) : Option Nat :=
  have behind := c.behind
  if more : c.nameIdx < name.length then
    if ∃ inside : c.patIdx < pattern.length,
        pattern[c.patIdx] = mark ∨ pattern[c.patIdx] = name[c.nameIdx] then
      scan pattern name ⟨c.patIdx + 1, c.nameIdx + 1, c.starIdx, c.starMatchIdx,
        Nat.le_succ_of_le behind⟩
    else if starred : ∃ inside : c.patIdx < pattern.length, pattern[c.patIdx] = star then
      scan pattern name ⟨c.patIdx + 1, c.nameIdx, some c.patIdx, c.nameIdx, le_rfl⟩
    else
      match c.starIdx with
      | some last => scan pattern name ⟨last + 1, c.starMatchIdx + 1, some last,
          c.starMatchIdx + 1, le_rfl⟩
      | none => none
  else some c.patIdx
termination_by (name.length - c.starMatchIdx, name.length - c.nameIdx, pattern.length - c.patIdx)
decreasing_by
  all_goals
    rw [Prod.lex_def, Prod.lex_def]
    dsimp only
  · omega
  · obtain ⟨inside, _⟩ := starred
    omega
  · omega

/-- The loop over the stars at the end. -/
def skipStars (pattern : Bytes) (patIdx : Nat) : Nat :=
  if ∃ inside : patIdx < pattern.length, pattern[patIdx] = star then
    skipStars pattern (patIdx + 1)
  else patIdx
termination_by pattern.length - patIdx
decreasing_by
  rename_i starred
  obtain ⟨inside, _⟩ := starred
  omega

def matchesSimpleGlob (pattern name : Bytes) : Bool :=
  match scan pattern name {} with
  | some patIdx => skipStars pattern patIdx == pattern.length
  | none => false

/-! ## What it decides -/

/-- The language of a pattern. -/
abbrev Matches (pattern name : Bytes) : Prop := ReadsAs star mark (fun _ _ => True) pattern name

/-- The language of a pattern whose stars stand for a star alone where they meet one. -/
abbrev MatchesAlone (pattern name : Bytes) : Prop := ReadsAs star mark (Alone star) pattern name

theorem star_ne_mark : star ≠ mark := by decide

theorem skipStars_iff {pattern : Bytes} {patIdx : Nat} (inside : patIdx ≤ pattern.length) :
    skipStars pattern patIdx = pattern.length ↔ ∀ byte ∈ pattern.drop patIdx, byte = star := by
  induction patIdx using skipStars.induct pattern with
  | case1 patIdx starred ih =>
    obtain ⟨below, isStar⟩ := starred
    rw [skipStars, if_pos ⟨below, isStar⟩, ih below, List.drop_eq_getElem_cons below]
    simp [isStar]
  | case2 patIdx other =>
    rw [skipStars, if_neg other]
    rcases inside.eq_or_lt with rfl | below
    · simp
    · refine iff_of_false below.ne fun stars => other ⟨below, stars _ ?_⟩
      rw [List.drop_eq_getElem_cons below]
      exact List.mem_cons_self

section Scan

variable (pattern name : Bytes)

/-- Since the last star the pattern stands byte by byte for the name. -/
def Aligned (c : GlobCursor) : Prop :=
  c.patIdx ≤ pattern.length ∧ ∀ last ∈ c.starIdx, last < pattern.length ∧ ∃ taken part,
    pattern.drop (last + 1) = taken ++ pattern.drop c.patIdx ∧
      name.drop c.starMatchIdx = part ++ name.drop c.nameIdx ∧ List.Forall₂ (Fits mark) taken part

/-- What is left can be read from here, or from a later place of the last star. -/
def Remaining (c : GlobCursor) : Prop :=
  MatchesAlone (pattern.drop c.patIdx) (name.drop c.nameIdx) ∨
    ∃ last ∈ c.starIdx, ReadsIn star mark (Alone star) (pattern.drop (last + 1))
      (name.drop (c.starMatchIdx + 1))

variable {pattern name} {c : GlobCursor}

/-- What a later place of the last star reads is read from here on. -/
theorem Aligned.passes (aligned : Aligned pattern name c) {last : Nat} (held : last ∈ c.starIdx)
    (later : ReadsIn star mark (Alone star) (pattern.drop (last + 1))
      (name.drop (c.starMatchIdx + 1))) :
    ReadsIn star mark (Alone star) (pattern.drop c.patIdx) (name.drop c.nameIdx) := by
  obtain ⟨_, taken, part, patterns, names, fits⟩ := aligned.2 last held
  obtain ⟨rest, within, reads⟩ := later
  rw [patterns] at reads
  refine reads.passes star_ne_mark fits ?_
  rw [← names]
  rw [← List.tail_drop] at within
  exact within.trans (List.tail_suffix _)

/-- Where the pattern cannot go on, only the last star can. -/
theorem remaining_of_stuck (more : c.nameIdx < name.length)
    (other : ¬ ∃ inside : c.patIdx < pattern.length,
      pattern[c.patIdx] = mark ∨ pattern[c.patIdx] = name[c.nameIdx])
    (plain : ¬ ∃ inside : c.patIdx < pattern.length, pattern[c.patIdx] = star) :
    Remaining pattern name c ↔ ∃ last ∈ c.starIdx, ReadsIn star mark (Alone star)
      (pattern.drop (last + 1)) (name.drop (c.starMatchIdx + 1)) := by
  refine or_iff_right fun reads => ?_
  rw [List.drop_eq_getElem_cons more] at reads
  by_cases below : c.patIdx < pattern.length
  · rw [List.drop_eq_getElem_cons below] at reads
    exact other ⟨below, ((reads_cons_iff fun isStar => plain ⟨below, isStar⟩).mp reads).1⟩
  · rw [List.drop_eq_nil_of_le (not_lt.mp below)] at reads
    cases reads

/-- The loop ends at stars alone exactly where what is left can be read. -/
theorem scan_iff (aligned : Aligned pattern name c) :
    (∃ patIdx ∈ scan pattern name c, skipStars pattern patIdx = pattern.length) ↔
      Remaining pattern name c := by
  have advanced : ∀ {i : Nat} (inside : i < name.length),
      name.drop i = name[i] :: name.drop (i + 1) := List.drop_eq_getElem_cons
  induction c using scan.induct pattern name with
  | case1 c behind more taken ih =>
    rw [scan, dif_pos more, if_pos taken]
    obtain ⟨below, fit⟩ := taken
    have here := List.drop_eq_getElem_cons below
    refine (ih ⟨below, fun last held => ?_⟩).trans (or_congr_left ?_)
    · obtain ⟨starred, taken, part, patterns, names, fits⟩ := aligned.2 last held
      refine ⟨starred, taken ++ [pattern[c.patIdx]], part ++ [name[c.nameIdx]], ?_, ?_, ?_⟩
      · rw [patterns, here, List.append_assoc, List.singleton_append]
      · rw [names, advanced more, List.append_assoc, List.singleton_append]
      · exact List.rel_append fits (.cons fit .nil)
    · rw [here, advanced more]
      by_cases isStar : pattern[c.patIdx] = star
      · have met : name[c.nameIdx] = star :=
          (fit.resolve_left (isStar ▸ star_ne_mark)).symm.trans isStar
        rw [isStar, met]
        exact (reads_alone_star star_ne_mark).symm
      · exact (and_iff_right fit).symm.trans (reads_cons_iff isStar).symm
  | case2 c behind more other starred ih =>
    rw [scan, dif_pos more, if_neg other, dif_pos starred]
    obtain ⟨below, isStar⟩ := starred
    have here := List.drop_eq_getElem_cons below
    rw [isStar] at here
    have apart : name[c.nameIdx] ≠ star := fun met =>
      other ⟨below, .inr (isStar.trans met.symm)⟩
    have reads : MatchesAlone (pattern.drop c.patIdx) (name.drop c.nameIdx) ↔
        ReadsIn star mark (Alone star) (pattern.drop (c.patIdx + 1)) (name.drop c.nameIdx) := by
      rw [here, advanced more]
      exact reads_alone_other star_ne_mark apart
    refine (ih ⟨below, ?_⟩).trans ?_
    · rintro last ⟨⟩
      exact ⟨below, [], [], rfl, rfl, .nil⟩
    · have again := readsIn_iff.symm.trans reads.symm
      rw [List.tail_drop] at again
      rw [Remaining, Remaining]
      simp only [Option.mem_def, Option.some.injEq, exists_eq_left', again]
      refine (or_iff_left_of_imp ?_).symm
      rintro ⟨last, held, later⟩
      have passed := aligned.passes held later
      rw [here] at passed
      exact reads.mpr (passed.of_star star_ne_mark)
  | case3 c behind more other plain last found ih =>
    rw [scan, dif_pos more, if_neg other, dif_neg plain, found]
    rw [remaining_of_stuck more other plain]
    refine (ih ?_).trans ?_
    · refine ⟨(aligned.2 last found).1, ?_⟩
      rintro _ ⟨⟩
      exact ⟨(aligned.2 last found).1, [], [], rfl, rfl, .nil⟩
    · rw [Remaining]
      simp only [found, Option.mem_def, Option.some.injEq, exists_eq_left']
      rw [@readsIn_iff _ _ _ _ _ (name.drop (c.starMatchIdx + 1)), List.tail_drop]
  | case4 c behind more other plain none_ =>
    rw [scan, dif_pos more, if_neg other, dif_neg plain, none_,
      remaining_of_stuck more other plain, none_]
    simp
  | case5 c behind done =>
    rw [scan, dif_neg done]
    have ended : name.drop c.nameIdx = [] := List.drop_eq_nil_of_le (not_lt.mp done)
    have read : Remaining pattern name c ↔ MatchesAlone (pattern.drop c.patIdx) [] := by
      rw [Remaining, ended]
      refine or_iff_left_of_imp ?_
      rintro ⟨last, held, later⟩
      have passed := aligned.passes held later
      rw [ended] at passed
      exact (readsIn_iff.mp passed).elim id fun passed => by
        obtain ⟨rest, later, reads⟩ := passed
        exact List.suffix_nil.mp later ▸ reads
    have empty : Alone star [] [] := fun _ same => nomatch same
    refine Iff.trans ?_ (read.trans (reads_nil_iff empty)).symm
    rw [← skipStars_iff aligned.1]
    simp

end Scan

/-! ## When it is exact -/

variable {pattern name : Bytes}

/-- **The matcher decides** the language in which a star that meets a star stands for it. -/
theorem matchesSimpleGlob_iff : matchesSimpleGlob pattern name = true ↔
    MatchesAlone pattern name := by
  have aligned : Aligned pattern name {} := ⟨Nat.zero_le _, fun _ held => nomatch held⟩
  have scanned := scan_iff aligned
  rw [Remaining] at scanned
  simp only [List.drop_zero, Option.mem_def, reduceCtorEq, false_and, exists_false,
    or_false] at scanned
  rw [← scanned, matchesSimpleGlob]
  cases scan pattern name {} <;> simp

theorem Matches.of_alone (reads : MatchesAlone pattern name) : Matches pattern name :=
  reads.mono fun _ _ _ => trivial

/-- **The matcher is exact** on a pattern and a name exactly where the name is not in the
language of the pattern, or can be read with every star that meets a star standing for it. -/
theorem glob_exact_iff (pattern name : Bytes) :
    (matchesSimpleGlob pattern name = true ↔ Matches pattern name) ↔
      (Matches pattern name → MatchesAlone pattern name) := by
  rw [matchesSimpleGlob_iff]
  exact ⟨Iff.mpr, fun reads => ⟨.of_alone, reads⟩⟩

/-- The name `.#*x` is not ignored by the glob `.#*`. -/
theorem starred_name_missed : matchesSimpleGlob [46, 35, 42] [46, 35, 42, 120] = false ∧
    Matches [46, 35, 42] [46, 35, 42, 120] := by
  constructor
  · simp [matchesSimpleGlob, scan, star, mark]
  · exact .letter (by decide) (.letter (by decide) (@ReadsAs.skip _ _ _ _ [] [42, 120] [] trivial .nil))

end OpenMemory.Watch
