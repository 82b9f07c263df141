import OpenMemory.Merge.Model

/-!
# Three-way merges of fields

Two sides that come from one base are merged field by field. A side that left a field as it was
gives way to the other, and two different changes are a conflict. Fields are optional, so an
absent field is a value like any other: it can be added, edited or deleted on either side.
-/

namespace OpenMemory.Merge

open Foundation

/-! ## The merge -/

inductive ThreeWaySource where
  | base
  | source
  | target
  | identicalChange

structure ThreeWayValue (T : Type) where
  value : T
  source : ThreeWaySource

def mergeValue {T : Type} [DecidableEq T] (base source target : T) :
    MergeResult (ThreeWayValue T) :=
  if source = base ∧ target = base then .ok ⟨base, .base⟩
  else if source ≠ base ∧ target = base then .ok ⟨source, .source⟩
  else if source = base ∧ target ≠ base then .ok ⟨target, .target⟩
  else if source = target then .ok ⟨source, .identicalChange⟩
  else .error ⟨.threeWayConflict, "source and target changed the same field differently"⟩

abbrev Fields := OrderedMap String String

structure FieldMerge where
  values : Fields := ∅
  sources : OrderedMap String ThreeWaySource := ∅

/-- The keys of three maps in their order, as `BTreeSet` collects them. -/
def keysOf (base source target : Fields) : List String :=
  ascending ((base.toList ++ source.toList ++ target.toList).map Prod.fst).toFinset

/-- One round of the loop of `merge_fields`. -/
def mergeField (base source target : Fields) (merge : FieldMerge) (key : String) :
    MergeResult FieldMerge := do
  let merged ← mergeValue base[key]? source[key]? target[key]?
  pure
    { values := match merged.value with
        | some value => merge.values.insert key value
        | none => merge.values
      sources := merge.sources.insert key merged.source }

def mergeFields (base source target : Fields) : MergeResult FieldMerge :=
  (keysOf base source target).foldlM (mergeField base source target) {}

/-! ## What one field becomes -/

section Value

variable {T : Type} [DecidableEq T]

/-- Both sides changed a value, and to different ones. -/
def Diverged (base source target : T) : Prop := source ≠ base ∧ target ≠ base ∧ source ≠ target

/-- The side that changed a value, and what became of it. -/
def settle (base source target : T) : ThreeWayValue T :=
  if source = base then ⟨target, if target = base then .base else .target⟩
  else ⟨source, if target = base then .source else .identicalChange⟩

theorem mergeValue_cases (base source target : T) :
    (Diverged base source target ∧ ∃ error, mergeValue base source target = .error error) ∨
      ¬ Diverged base source target ∧
        mergeValue base source target = .ok (settle base source target) := by
  unfold mergeValue settle Diverged
  by_cases left : source = base <;> by_cases right : target = base <;>
    by_cases agree : source = target <;> simp_all

/-- The provenance after the sides are swapped. -/
def ThreeWaySource.swap : ThreeWaySource → ThreeWaySource
  | .source => .target
  | .target => .source
  | other => other

theorem settle_swap {base source target : T} (agree : ¬ Diverged base source target) :
    settle base target source =
      ⟨(settle base source target).value, (settle base source target).source.swap⟩ := by
  unfold settle Diverged at *
  by_cases left : source = base <;> by_cases right : target = base <;>
    simp_all [ThreeWaySource.swap]

end Value

/-! ## What a merge becomes -/

variable {base source target : Fields} {key : String}

theorem mem_keysOf : key ∈ keysOf base source target ↔
    base[key]? ≠ none ∨ source[key]? ≠ none ∨ target[key]? ≠ none := by
  have held (fields : Fields) : key ∈ fields.toList.map Prod.fst ↔ fields[key]? ≠ none := by
    rw [List.mem_map, Option.ne_none_iff_exists']
    constructor
    · rintro ⟨⟨_, value⟩, member, rfl⟩
      exact ⟨value, OrderedMap.mem_toList.mp member⟩
    · rintro ⟨value, found⟩
      exact ⟨(key, value), OrderedMap.mem_toList.mpr found, rfl⟩
  rw [keysOf, mem_ascending, List.mem_toFinset, List.map_append, List.map_append, List.mem_append,
    List.mem_append, held, held, held, or_assoc]

/-- The keys that were seen are settled. -/
def Settled (base source target : Fields) (seen : List String) (merge : FieldMerge) : Prop :=
  ∀ key : String, merge.values[key]? =
      (if key ∈ seen then (settle base[key]? source[key]? target[key]?).value else none) ∧
    merge.sources[key]? =
      if key ∈ seen then some (settle base[key]? source[key]? target[key]?).source else none

theorem Settled.step {seen : List String} {merge : FieldMerge}
    (settled : Settled base source target seen merge)
    (agree : ¬ Diverged base[key]? source[key]? target[key]?) :
    ∃ after, mergeField base source target merge key = .ok after ∧
      Settled base source target (seen ++ [key]) after := by
  have merged := ((mergeValue_cases _ _ _).resolve_left fun both => agree both.1).2
  refine ⟨_, by rw [mergeField, merged]; rfl, fun other => ?_⟩
  obtain ⟨values, sources⟩ := settled other
  by_cases same : key = other
  · subst same
    refine ⟨?_, by simp⟩
    cases taken : (settle base[key]? source[key]? target[key]?).value with
    | none => simp [values, taken]
    | some value => simp
  · refine ⟨?_, by simp [OrderedMap.get_insert, same, Ne.symm same, sources]⟩
    cases (settle base[key]? source[key]? target[key]?).value with
    | none => simp [values, Ne.symm same]
    | some value => simp [OrderedMap.get_insert, same, values, Ne.symm same]

theorem not_diverged_of_absent (absent : key ∉ keysOf base source target) :
    ¬ Diverged base[key]? source[key]? target[key]? := by
  rw [mem_keysOf, not_or, not_or, not_not, not_not, not_not] at absent
  rw [absent.1, absent.2.1]
  exact fun diverged => diverged.1 rfl

/-- **A merge succeeds** where no field was changed to different values, and settles all. -/
theorem exists_mergeFields
    (agree : ∀ key : String, ¬ Diverged base[key]? source[key]? target[key]?) :
    ∃ merge, mergeFields base source target = .ok merge ∧
      Settled base source target (keysOf base source target) merge :=
  foldlM_reaches _ _ _ (fun _ => by simp) fun _ key _ _ _ settled => settled.step (agree key)

theorem not_diverged_of_merged {merge : FieldMerge}
    (run : mergeFields base source target = .ok merge) (key : String) :
    ¬ Diverged base[key]? source[key]? target[key]? := by
  by_cases listed : key ∈ keysOf base source target
  · refine foldlM_prefix_induction (motive := fun seen _ => ∀ key ∈ seen,
      ¬ Diverged base[key]? source[key]? target[key]?) (by simp) ?_ run key listed
    intro seen last before after earlier step other member
    rcases List.mem_append.mp member with member | member
    · exact earlier other member
    · rw [List.mem_singleton.mp member]
      obtain ⟨value, merged, _⟩ := bind_eq_ok.mp step
      rcases mergeValue_cases base[last]? source[last]? target[last]? with ⟨_, error, failed⟩ | agree
      · rw [failed] at merged
        cases merged
      · exact agree.1
  · exact not_diverged_of_absent listed

theorem settled_of_merged {merge : FieldMerge} (run : mergeFields base source target = .ok merge) :
    Settled base source target (keysOf base source target) merge := by
  obtain ⟨other, same, settled⟩ := exists_mergeFields (not_diverged_of_merged run)
  rw [run] at same
  exact Except.ok.inj same ▸ settled

theorem Settled.value {merge : FieldMerge}
    (settled : Settled base source target (keysOf base source target) merge) (key : String) :
    merge.values[key]? = (settle base[key]? source[key]? target[key]?).value := by
  rw [(settled key).1]
  split
  next => rfl
  next absent =>
    rw [mem_keysOf, not_or, not_or, not_not, not_not, not_not] at absent
    rw [absent.1, absent.2.1, absent.2.2]
    rfl

/-! ## The laws -/

/-- What a three-way merge of fields promises. -/
structure ThreeWayLaws (base source target : Fields) : Prop where
  succeeds : (∃ merge, mergeFields base source target = .ok merge) ↔
    ¬ ∃ key : String, source[key]? ≠ base[key]? ∧ target[key]? ≠ base[key]? ∧ source[key]? ≠ target[key]?
  /-- The value of the side that changed it, or of both where they agree. -/
  picks : ∀ merge, mergeFields base source target = .ok merge → ∀ key : String,
    (target[key]? = base[key]? → merge.values[key]? = source[key]?) ∧
      (source[key]? = base[key]? → merge.values[key]? = target[key]?) ∧
        (source[key]? = target[key]? → merge.values[key]? = source[key]?)
  deletes : ∀ merge, mergeFields base source target = .ok merge → ∀ key : String,
    (source[key]? = none ∧ target[key]? = base[key]?) ∨
      (target[key]? = none ∧ source[key]? = base[key]?) → key ∉ merge.values
  swaps : ∀ merge, mergeFields base source target = .ok merge →
    ∃ swapped, mergeFields base target source = .ok swapped ∧ swapped.values = merge.values ∧
      ∀ key : String, swapped.sources[key]? = merge.sources[key]?.map ThreeWaySource.swap
  keeps_source : ∃ merge, mergeFields base source base = .ok merge ∧ merge.values = source
  keeps_target : ∃ merge, mergeFields base base target = .ok merge ∧ merge.values = target

theorem picked {merge : FieldMerge} (run : mergeFields base source target = .ok merge)
    (key : String) : (target[key]? = base[key]? → merge.values[key]? = source[key]?) ∧
      (source[key]? = base[key]? → merge.values[key]? = target[key]?) ∧
        (source[key]? = target[key]? → merge.values[key]? = source[key]?) := by
  rw [(settled_of_merged run).value, settle]
  by_cases untouched : source[key]? = base[key]? <;>
    by_cases kept : target[key]? = base[key]? <;> simp_all

/-- **The laws of three-way merges** hold of all maps. -/
theorem three_way_laws (base source target : Fields) : ThreeWayLaws base source target where
  succeeds := by
    rw [not_exists]
    exact ⟨fun ⟨_, run⟩ => not_diverged_of_merged run, fun agree =>
      (exists_mergeFields agree).imp fun _ both => both.1⟩
  picks := fun _ run => picked run
  deletes := by
    rintro merge run key (⟨absent, kept⟩ | ⟨absent, kept⟩)
    · exact OrderedMap.not_mem_iff_get.mpr (((picked run key).1 kept).trans absent)
    · exact OrderedMap.not_mem_iff_get.mpr (((picked run key).2.1 kept).trans absent)
  swaps := by
    intro merge run
    have agree := not_diverged_of_merged run
    obtain ⟨swapped, again, settled⟩ := @exists_mergeFields base target source
      fun key both => agree key ⟨both.2.1, both.1, both.2.2.symm⟩
    refine ⟨swapped, again, Std.ExtTreeMap.ext_getElem? fun key => ?_, fun key => ?_⟩
    · rw [settled.value, (settled_of_merged run).value, settle_swap (agree key)]
    · have listed : key ∈ keysOf base target source ↔ key ∈ keysOf base source target := by
        rw [mem_keysOf, mem_keysOf, @or_comm (target[key]? ≠ none)]
      rw [(settled key).2, (settled_of_merged run key).2, settle_swap (agree key)]
      simp only [listed]
      split <;> rfl
  keeps_source := by
    obtain ⟨merge, run, _⟩ := @exists_mergeFields base source base fun _ both => both.2.1 rfl
    exact ⟨merge, run, Std.ExtTreeMap.ext_getElem? fun key => (picked run key).1 rfl⟩
  keeps_target := by
    obtain ⟨merge, run, _⟩ := @exists_mergeFields base base target fun _ both => both.1 rfl
    exact ⟨merge, run, Std.ExtTreeMap.ext_getElem? fun key => (picked run key).2.1 rfl⟩

end OpenMemory.Merge
