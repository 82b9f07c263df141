import Mathlib

/-!
# Lineages of versions

Things have versions with a content, and a version may follow another one. Where every new
version follows the newest one of its thing, versions never branch and each leads back to a
first one (`Step.chained`).
-/

namespace Foundation

variable {ι ν γ : Type}

/-- What each version is of, what it follows and what it holds, and the newest version of each
thing with what the thing holds now. -/
structure Lineage (ι ν γ : Type) where
  version : ν → Option (ι × Option ν × γ)
  head : ι → Option (ν × γ)

namespace Lineage

/-- A version from which finitely many steps lead back to a first one, all of one thing. -/
inductive Rooted (version : ν → Option (ι × Option ν × γ)) (i : ι) : ν → Prop
  | first {v : ν} {c : γ} (known : version v = some (i, none, c)) : Rooted version i v
  | follows {v parent : ν} {c : γ} (known : version v = some (i, some parent, c))
      (rest : Rooted version i parent) : Rooted version i v

/-- Versions are chains that do not branch, with the heads at their ends. -/
structure Chained (lineage : Lineage ι ν γ) : Prop where
  rooted : ∀ v i facts, lineage.version v = some (i, facts) → Rooted lineage.version i v
  single : ∀ v w i j parent c d, lineage.version v = some (i, some parent, c) →
    lineage.version w = some (j, some parent, d) → v = w
  heads : ∀ i v c, lineage.head i = some (v, c) →
    ∃ parent, lineage.version v = some (i, parent, c)
  newest : ∀ i j v w c d, lineage.head i = some (v, c) → lineage.version w ≠ some (j, some v, d)

/-- A thing gets a version that follows its head, or things lose their heads. -/
inductive Step [DecidableEq ι] [DecidableEq ν] (before after : Lineage ι ν γ) : Prop
  | kept (version : after.version = before.version)
      (fewer : ∀ i head, after.head i = some head → before.head i = some head)
  | added {i : ι} {v : ν} {c : γ} {parent : Option ν} {head : Option (ν × γ)}
      (new : before.version v = none) (newest : ∀ last, head = some last → last = (v, c))
      (follows : ∀ last, parent = some last ↔ ∃ d, before.head i = some (last, d))
      (version : ∀ w, after.version w = if w = v then some (i, parent, c) else before.version w)
      (heads : ∀ j, after.head j = if j = i then head else before.head j)

theorem Rooted.mono {version later : ν → Option (ι × Option ν × γ)} {i : ι} {v : ν}
    (kept : ∀ w facts, version w = some facts → later w = some facts)
    (rooted : Rooted version i v) : Rooted later i v := by
  induction rooted with
  | first known => exact .first (kept _ _ known)
  | follows known _ ih => exact .follows (kept _ _ known) ih

/-- What a version follows is known. -/
theorem Chained.parent_known {lineage : Lineage ι ν γ} {v w : ν} {i : ι} {c : γ}
    (chained : lineage.Chained) (known : lineage.version w = some (i, some v, c)) :
    lineage.version v ≠ none := by
  cases chained.rooted w i _ known with
  | first root => cases root.symm.trans known
  | follows same rest =>
    cases same.symm.trans known
    cases rest with
    | first known => exact Option.ne_none_iff_exists'.mpr ⟨_, known⟩
    | follows known _ => exact Option.ne_none_iff_exists'.mpr ⟨_, known⟩

theorem Chained.of_unknown {lineage : Lineage ι ν γ} (unknown : ∀ v, lineage.version v = none)
    (headless : ∀ i head, lineage.head i ≠ some head) : lineage.Chained := by
  constructor <;> simp [unknown, headless]

/-- **A step keeps lineages chained.** -/
theorem Step.chained [DecidableEq ι] [DecidableEq ν] {before after : Lineage ι ν γ}
    (step : Step before after) (chained : before.Chained) : after.Chained := by
  have known := @chained.parent_known
  obtain ⟨rooted, single, heads, newest⟩ := chained
  cases step with
  | kept version fewer =>
    rw [← version] at rooted single heads newest
    exact ⟨rooted, single, fun i v c headed => heads i v c (fewer i _ headed),
      fun i j v w c d headed => newest i j v w c d (fewer i _ headed)⟩
  | @added i v c parent head new last follows version headed =>
    have kept (w : ν) (facts) (earlier : before.version w = some facts) :
        after.version w = some facts := by grind
    constructor
    · intro w j facts there
      rw [version] at there
      split at there
      · -- The new version leads back through the head that it follows.
        subst w
        cases there
        have stands := (version v).trans (if_pos rfl)
        cases parent with
        | none => exact .first stands
        | some old =>
          obtain ⟨d, was⟩ := (follows old).mp rfl
          obtain ⟨_, stood⟩ := heads i old d was
          exact .follows stands ((rooted _ _ _ stood).mono kept)
      · exact (rooted w j facts there).mono kept
    all_goals grind

end Lineage

end Foundation
