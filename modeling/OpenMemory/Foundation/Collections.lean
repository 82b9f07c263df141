import OpenMemory.Foundation.Fallible

/-!
# Ordered sets and maps

An ordered set is a `Finset` that is iterated in increasing order
(`ascending`). An ordered map is the standard library's extensional tree map
under the order of its keys (`OrderedMap`): two maps with the same look-ups are
equal, so a map built from a list whose keys are distinct does not depend on
the order of the list (`collectBy_perm`).
-/

namespace Foundation

universe u v

/-! ## Sets in increasing order -/

section Ascending

variable {α : Type u} [LinearOrder α]

/-- The elements of a finite set in increasing order. -/
def ascending (s : Finset α) : List α :=
  Quot.liftOn s.val (fun l => l.insertionSort (· ≤ ·)) fun left right perm => by
    apply List.Perm.eq_of_pairwise' (r := (· ≤ ·))
    · exact List.pairwise_insertionSort _ left
    · exact List.pairwise_insertionSort _ right
    · exact (left.perm_insertionSort _).trans (perm.trans (right.perm_insertionSort _).symm)

theorem coe_ascending (s : Finset α) : (ascending s : Multiset α) = s.val := by
  obtain ⟨⟨l⟩, distinct⟩ := s
  exact Quot.sound (l.perm_insertionSort (· ≤ ·))

@[simp] theorem mem_ascending {s : Finset α} {a : α} : a ∈ ascending s ↔ a ∈ s := by
  rw [← Multiset.mem_coe, coe_ascending, Finset.mem_val]

@[simp] theorem length_ascending (s : Finset α) : (ascending s).length = s.card := by
  rw [← Multiset.coe_card, coe_ascending, Finset.card_val]

theorem ascending_injective : Function.Injective (ascending : Finset α → List α) := by
  intro s t same
  apply Finset.val_injective
  rw [← coe_ascending s, ← coe_ascending t, same]

theorem sortedLE_ascending (s : Finset α) : (ascending s).Pairwise (· ≤ ·) := by
  obtain ⟨⟨l⟩, distinct⟩ := s
  exact List.pairwise_insertionSort (· ≤ ·) l

/-- A strictly increasing list grows at its end by what is above its last element. -/
theorem pairwise_lt_concat {xs : List α} {x : α} (sorted : xs.Pairwise (· < ·))
    (above : ∀ last ∈ xs.getLast?, last < x) : (xs ++ [x]).Pairwise (· < ·) := by
  rw [List.pairwise_append]
  refine ⟨sorted, List.pairwise_singleton _ _, ?_⟩
  intro earlier member other isNew
  rw [List.mem_singleton] at isNew
  subst isNew
  rcases List.eq_nil_or_concat xs with rfl | ⟨initial, final, rfl⟩
  · cases member
  · have finalBelow : final < other := above final (by simp)
    rw [List.concat_eq_append] at sorted member
    rw [List.pairwise_append] at sorted
    rcases List.mem_append.mp member with inner | isFinal
    · exact (sorted.2.2 earlier inner final (by simp)).trans finalBelow
    · rw [List.mem_singleton] at isFinal
      exact isFinal ▸ finalBelow

end Ascending

/-! ## Lists in correspondence -/

section Correspondence

variable {α : Type u} {β : Type v} {R : α → β → Prop} {xs : List α} {ys : List β}

/-- Every element on the right has its partner on the left. -/
theorem exists_left_of_forall₂ (related : List.Forall₂ R xs ys) :
    ∀ y ∈ ys, ∃ x ∈ xs, R x y := by
  induction related with
  | nil => simp
  | cons first _ ih =>
    intro y member
    rcases List.mem_cons.mp member with rfl | later
    · exact ⟨_, List.mem_cons_self, first⟩
    · obtain ⟨x, found, holds⟩ := ih y later
      exact ⟨x, List.mem_cons_of_mem _ found, holds⟩

/-- Every element on the left has its partner on the right. -/
theorem exists_right_of_forall₂ (related : List.Forall₂ R xs ys) :
    ∀ x ∈ xs, ∃ y ∈ ys, R x y := by
  intro x member
  exact exists_left_of_forall₂ related.flip x member

/-- What related elements have in common. -/
theorem map_eq_of_forall₂ {γ : Type u} {f : α → γ} {g : β → γ} (related : List.Forall₂ R xs ys)
    (same : ∀ x y, R x y → f x = g y) : xs.map f = ys.map g := by
  induction related with
  | nil => rfl
  | cons first _ ih => rw [List.map_cons, List.map_cons, same _ _ first, ih]

/-- Elements that yield the same value, of values that are all distinct, are the same. -/
theorem eq_of_nodup_filterMap {f : α → Option β} (distinct : (xs.filterMap f).Nodup) {a b : α}
    (aMember : a ∈ xs) (bMember : b ∈ xs) {value : β} (ofA : f a = some value)
    (ofB : f b = some value) : a = b := by
  induction xs with
  | nil => cases aMember
  | cons x rest ih =>
    have listed : ∀ c ∈ rest, f c = some value → value ∈ rest.filterMap f := fun c member same =>
      List.mem_filterMap.mpr ⟨c, member, same⟩
    cases ofX : f x with
    | none =>
      rw [List.filterMap_cons_none ofX] at distinct
      rcases List.mem_cons.mp aMember with rfl | aLater
      · rw [ofX] at ofA
        cases ofA
      · rcases List.mem_cons.mp bMember with rfl | bLater
        · rw [ofX] at ofB
          cases ofB
        · exact ih distinct aLater bLater
    | some first =>
      rw [List.filterMap_cons_some ofX, List.nodup_cons] at distinct
      rcases List.mem_cons.mp aMember with rfl | aLater
      · rcases List.mem_cons.mp bMember with rfl | bLater
        · rfl
        · rw [ofX] at ofA
          cases ofA
          exact absurd (listed b bLater ofB) distinct.1
      · rcases List.mem_cons.mp bMember with rfl | bLater
        · rw [ofX] at ofB
          cases ofB
          exact absurd (listed a aLater ofA) distinct.1
        · exact ih distinct.2 aLater bLater

end Correspondence

/-! ## Maps -/

/-- A map whose entries are iterated in the order of its keys. -/
abbrev OrderedMap (κ : Type u) (α : Type v) [LinearOrder κ] := Std.ExtTreeMap κ α compare

namespace OrderedMap

variable {κ : Type u} {α : Type v} [LinearOrder κ]

instance transCmp_compare : Std.TransCmp (compare : κ → κ → Ordering) := inferInstance

theorem get_insert (map : OrderedMap κ α) (key : κ) (value : α) (other : κ) :
    (map.insert key value)[other]? = if key = other then some value else map[other]? := by
  rw [Std.ExtTreeMap.getElem?_insert]
  simp only [compare_eq_iff_eq]

variable {key : κ} {map : OrderedMap κ α}

theorem mem_iff_get : key ∈ map ↔ ∃ value, map[key]? = some value := by
  rw [← Option.isSome_iff_exists]
  exact Std.ExtTreeMap.mem_iff_isSome_getElem?

theorem not_mem_iff_get : key ∉ map ↔ map[key]? = none := by
  rw [mem_iff_get]
  cases map[key]? <;> simp

theorem get_insertIfNew (map : OrderedMap κ α) (key : κ) (value : α) (other : κ) :
    (map.insertIfNew key value)[other]? =
      if key = other ∧ map[key]? = none then some value else map[other]? := by
  rw [Std.ExtTreeMap.getElem?_insertIfNew]
  simp only [compare_eq_iff_eq, not_mem_iff_get]

@[simp] theorem get_empty (key : κ) : (∅ : OrderedMap κ α)[key]? = none := by
  simp

theorem mem_toList {value : α} : (key, value) ∈ map.toList ↔ map[key]? = some value :=
  Std.ExtTreeMap.mem_toList_iff_getElem?_eq_some

theorem sorted_toList (map : OrderedMap κ α) :
    (map.toList.map Prod.fst).Pairwise (· < ·) := by
  rw [List.pairwise_map]
  exact (Std.ExtTreeMap.ordered_keys_toList (t := map)).imp fun h => compare_lt_iff_lt.mp h

theorem toList_injective :
    Function.Injective (fun map : OrderedMap κ α => map.toList) := by
  intro left right same
  apply Std.ExtTreeMap.ext_getElem?
  intro key
  apply Option.ext
  intro value
  have entries : left.toList = right.toList := same
  rw [← mem_toList, ← mem_toList, entries]

theorem nodup_keys_toList (map : OrderedMap κ α) : (map.toList.map Prod.fst).Nodup :=
  (sorted_toList map).imp fun h => ne_of_lt h

/-- Keys of a map, as many as its size, are all its keys. -/
theorem mem_of_card_eq_size {used : Finset κ}
    (within : ∀ key ∈ used, (map[key]?).isSome = true) (size : used.card = map.size)
    {value : α} (found : map[key]? = some value) : key ∈ used := by
  have subset : used ⊆ (map.toList.map Prod.fst).toFinset := by
    intro other member
    obtain ⟨stored, present⟩ := Option.isSome_iff_exists.mp (within other member)
    rw [List.mem_toFinset, List.mem_map]
    exact ⟨(other, stored), OrderedMap.mem_toList.mpr present, rfl⟩
  have count : (map.toList.map Prod.fst).toFinset.card = map.size := by
    rw [List.toFinset_card_of_nodup (OrderedMap.nodup_keys_toList map), List.length_map,
      Std.ExtTreeMap.length_toList]
  rw [Finset.eq_of_subset_of_card_le subset (by rw [count, size]), List.mem_toFinset, List.mem_map]
  exact ⟨(key, value), OrderedMap.mem_toList.mpr found, rfl⟩

end OrderedMap

/-! ## Maps collected from lists -/

section Collect

variable {ε κ α : Type} [LinearOrder κ]

/-- Insert a key that must be new. -/
def insertFresh (map : OrderedMap κ α) (key : κ) (value : α) (onDuplicate : ε) :
    Except ε (OrderedMap κ α) :=
  if (map[key]?).isSome then .error onDuplicate else .ok (map.insert key value)

@[simp] theorem insertFresh_eq_ok {map after : OrderedMap κ α} {key : κ} {value : α}
    {onDuplicate : ε} :
    insertFresh map key value onDuplicate = .ok after ↔
      map[key]? = none ∧ after = map.insert key value := by
  unfold insertFresh
  cases map[key]? <;> simp [eq_comm]

/-- A map that finds a value of each element of a list, with a new element inserted. -/
theorem finds_insert {β : Type} {f : α → β} {map : OrderedMap κ β} {key : α → κ} {seen : List α}
    {x : α} (finds : ∀ k b, map[k]? = some b ↔ ∃ a ∈ seen, key a = k ∧ f a = b)
    (fresh : map[key x]? = none) (k : κ) (b : β) :
    (map.insert (key x) (f x))[k]? = some b ↔ ∃ a ∈ seen ++ [x], key a = k ∧ f a = b := by
  simp only [OrderedMap.get_insert, List.mem_append, List.mem_singleton, or_and_right, exists_or,
    exists_eq_left, ← finds]
  by_cases same : key x = k
  · subst same
    simp [fresh]
  · simp [same]

/-- The same of a map that finds the elements themselves. -/
theorem holds_insert {map : OrderedMap κ α} {key : α → κ} {seen : List α} {x : α}
    (finds : ∀ k a, map[k]? = some a ↔ a ∈ seen ∧ key a = k) (fresh : map[key x]? = none) (k : κ)
    (a : α) : (map.insert (key x) x)[k]? = some a ↔ a ∈ seen ++ [x] ∧ key a = k := by
  have inserted := @finds_insert _ _ _ _ (fun a => a) map key seen x
  simp only [exists_eq_right_right] at inserted
  exact inserted finds fresh k a

/-- Index a list by a key, refusing bad values and repeated keys. -/
def collectBy (key : α → κ) (bad : α → Prop) [DecidablePred bad] (onBad onDuplicate : ε)
    (values : List α) : Except ε (OrderedMap κ α) :=
  values.foldlM (fun map value => do
    if bad value then .error onBad else insertFresh map (key value) value onDuplicate) ∅

variable {key : α → κ} {bad : α → Prop} [DecidablePred bad] {onBad onDuplicate : ε}
  {values : List α} {map : OrderedMap κ α}

variable (collected : collectBy key bad onBad onDuplicate values = .ok map)

include collected

/-- What a successful collection says: every value is good, the keys are
distinct, and the map finds exactly the listed values under their keys. -/
theorem collectBy_ok : (∀ a ∈ values, ¬ bad a) ∧ (values.map key).Nodup ∧
      ∀ k a, map[k]? = some a ↔ a ∈ values ∧ key a = k := by
  refine foldlM_prefix_induction (motive := fun seen map => (∀ a ∈ seen, ¬ bad a) ∧
    (seen.map key).Nodup ∧ ∀ k a, map[k]? = some a ↔ a ∈ seen ∧ key a = k) ?_ ?_ collected
  · simp
  · rintro seen x before after ⟨good, distinct, finds⟩ step
    split at step
    · cases step
    · rename_i goodX
      obtain ⟨fresh, rfl⟩ := insertFresh_eq_ok.mp step
      have unseen : ∀ a ∈ seen, key a ≠ key x := by
        intro a member same
        have found := (finds (key x) a).mpr ⟨member, same⟩
        rw [fresh] at found
        cases found
      refine ⟨forall_mem_concat good goodX, ?_, ?_⟩
      · rw [List.map_append, List.nodup_append]
        refine ⟨distinct, by simp, ?_⟩
        simp only [List.map_cons, List.map_nil, List.mem_singleton, List.mem_map]
        rintro _ ⟨a, member, rfl⟩ _ rfl
        exact unseen a member
      · exact holds_insert finds fresh

omit collected in
/-- A list of good values with distinct keys is collected. -/
theorem exists_collectBy (onBad onDuplicate : ε) (good : ∀ a ∈ values, ¬ bad a)
    (distinct : (values.map key).Nodup) :
    ∃ map, collectBy key bad onBad onDuplicate values = .ok map := by
  obtain ⟨final, run, _⟩ := foldlM_reaches (fun map value => do
      if bad value then .error onBad else insertFresh map (key value) value onDuplicate) values ∅
    (motive := fun seen map => ∀ k, map[k]? ≠ none → k ∈ seen.map key) (by simp)
    fun seen x rest before split known => by
      subst split
      have fresh : before[key x]? = none := by
        by_contra present
        have member := known (key x) present
        rw [List.map_append, List.nodup_append] at distinct
        exact distinct.2.2 _ member _ (by simp) rfl
      refine ⟨before.insert (key x) x, ?_, fun k present => ?_⟩
      · rw [if_neg (good x (by simp))]
        exact insertFresh_eq_ok.mpr ⟨fresh, rfl⟩
      · rw [OrderedMap.get_insert] at present
        rw [List.map_append, List.mem_append]
        split at present
        · rename_i same
          exact .inr (List.mem_singleton.mpr same.symm)
        · exact .inl (known k present)
  exact ⟨final, run⟩

/-- **Collecting does not depend on the order of the list.** -/
theorem collectBy_perm {others : List α} (perm : values.Perm others) :
    collectBy key bad onBad onDuplicate others = .ok map := by
  obtain ⟨good, distinct, finds⟩ := collectBy_ok collected
  obtain ⟨other, run⟩ := exists_collectBy onBad onDuplicate
    (fun a member => good a (perm.mem_iff.mpr member)) ((perm.map key).nodup_iff.mp distinct)
  obtain ⟨_, _, findsOther⟩ := collectBy_ok run
  have same : other = map := by
    apply Std.ExtTreeMap.ext_getElem?
    intro k
    apply Option.ext
    intro a
    rw [findsOther, finds, perm.mem_iff]
  rw [run, same]

/-- The collected values, in the order of their keys. -/
theorem collectBy_toList_perm : (map.toList.map Prod.snd).Perm values := by
  obtain ⟨_, distinct, finds⟩ := collectBy_ok collected
  have keyed : ∀ entry ∈ map.toList, key entry.2 = entry.1 := by
    rintro ⟨k, a⟩ member
    exact ((finds k a).mp (OrderedMap.mem_toList.mp member)).2
  have nodupValues : (map.toList.map Prod.snd).Nodup := by
    have keys := OrderedMap.nodup_keys_toList map
    have through : map.toList.map Prod.fst = (map.toList.map Prod.snd).map key := by
      rw [List.map_map]
      exact List.map_congr_left fun entry member => (keyed entry member).symm
    rw [through] at keys
    exact keys.of_map
  refine (List.perm_ext_iff_of_nodup nodupValues distinct.of_map).mpr fun a => ?_
  rw [List.mem_map]
  constructor
  · rintro ⟨⟨k, b⟩, member, rfl⟩
    exact ((finds k b).mp (OrderedMap.mem_toList.mp member)).1
  · intro member
    exact ⟨(key a, a), OrderedMap.mem_toList.mpr ((finds (key a) a).mpr ⟨member, rfl⟩), rfl⟩

theorem collectBy_size : map.size = values.length := by
  have perm := (collectBy_toList_perm collected).length_eq
  rw [List.length_map, Std.ExtTreeMap.length_toList] at perm
  exact perm

end Collect

end Foundation
