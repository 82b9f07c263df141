import OpenMemory.Foundation.Collections

/-!
# Entries that find each other by key

Entries arrive one after another at an index that already holds some. An entry
whose key is known joins the first entry with that key; an entry whose key is
new becomes a newcomer, and later entries may join it. `arrivals` lists what
each entry finds and `newcomers` lists the entries that found nothing.

An index need not store an entry that joined another: looking up a key among
the residents is looking it up among all entries (`lookup_residents`). So a map
that stores newcomers only, under the keys themselves or under injective digests
of them, answers every arrival (`Indexes`, `arrivals_map`). Two indexes that
agree on what the arriving keys find at the start agree to the end
(`arrivals_eq_iff`).
-/

namespace Foundation

universe u v w

variable {κ : Type u} {α : Type v} [BEq κ]

/-! ## Arrivals and newcomers -/

/-- What each arriving entry finds under its key. -/
def arrivals (held : List (κ × α)) : List (κ × α) → List (Option α)
  | [] => []
  | entry :: rest => held.lookup entry.1 :: arrivals (held ++ [entry]) rest

/-- The arriving entries that find nothing. -/
def newcomers (held : List (κ × α)) : List (κ × α) → List (κ × α)
  | [] => []
  | entry :: rest =>
    match held.lookup entry.1 with
    | none => entry :: newcomers (held ++ [entry]) rest
    | some _ => newcomers (held ++ [entry]) rest

theorem arrivals_concat (held incoming : List (κ × α)) (entry : κ × α) :
    arrivals held (incoming ++ [entry]) =
      arrivals held incoming ++ [(held ++ incoming).lookup entry.1] := by
  induction incoming generalizing held with
  | nil => simp [arrivals]
  | cons first rest ih => simp [arrivals, ih]

theorem newcomers_concat (held incoming : List (κ × α)) (entry : κ × α) :
    newcomers held (incoming ++ [entry]) = newcomers held incoming ++
      (if ((held ++ incoming).lookup entry.1).isNone then [entry] else []) := by
  induction incoming generalizing held with
  | nil =>
    cases found : held.lookup entry.1 <;> simp [newcomers, found]
  | cons first rest ih =>
    have joined : held ++ [first] ++ rest = held ++ first :: rest := by simp
    have later := ih (held ++ [first])
    rw [joined] at later
    cases found : held.lookup first.1 with
    | none => simp only [List.cons_append, newcomers, found, later]
    | some _ => simp only [List.cons_append, newcomers, found, later]

theorem length_arrivals (held incoming : List (κ × α)) :
    (arrivals held incoming).length = incoming.length := by
  induction incoming generalizing held with
  | nil => rfl
  | cons first rest ih => simp [arrivals, ih]

theorem newcomers_subset (held incoming : List (κ × α)) :
    ∀ entry ∈ newcomers held incoming, entry ∈ incoming := by
  induction incoming generalizing held with
  | nil => simp [newcomers]
  | cons first rest ih =>
    intro entry member
    cases found : held.lookup first.1 with
    | some value =>
      simp only [newcomers, found] at member
      exact List.mem_cons_of_mem _ (ih _ entry member)
    | none =>
      simp only [newcomers, found] at member
      rcases List.mem_cons.mp member with rfl | later
      · exact List.mem_cons_self
      · exact List.mem_cons_of_mem _ (ih _ entry later)

variable [LawfulBEq κ]

theorem lookup_cons_of_ne {entry : κ × α} {entries : List (κ × α)} {key : κ}
    (different : key ≠ entry.1) : (entry :: entries).lookup key = entries.lookup key := by
  rw [List.lookup_cons, beq_false_of_ne different]

/-- A key that is found belongs to an entry with that value. -/
theorem mem_of_lookup {entries : List (κ × α)} {key : κ} {value : α}
    (found : entries.lookup key = some value) : (key, value) ∈ entries := by
  obtain ⟨before, after, rfl, _⟩ := List.lookup_eq_some_iff.mp found
  simp

theorem lookup_eq_none_iff_not_mem {entries : List (κ × α)} {key : κ} :
    entries.lookup key = none ↔ key ∉ entries.map Prod.fst := by
  rw [List.lookup_eq_none_iff]
  constructor
  · intro absent known
    obtain ⟨entry, member, rfl⟩ := List.mem_map.mp known
    have differs := absent entry member
    simp at differs
  · intro absent entry member
    rw [bne_iff_ne]
    intro same
    exact absent (List.mem_map.mpr ⟨entry, member, same.symm⟩)

/-- Newcomers have keys that were not held, and no two have the same key. -/
theorem newcomers_keys (held incoming : List (κ × α)) :
    (∀ entry ∈ newcomers held incoming, entry.1 ∉ held.map Prod.fst) ∧
      ((newcomers held incoming).map Prod.fst).Nodup := by
  induction incoming generalizing held with
  | nil => simp [newcomers]
  | cons first rest ih =>
    obtain ⟨fresh, distinct⟩ := ih (held ++ [first])
    have freshHeld : ∀ entry ∈ newcomers (held ++ [first]) rest,
        entry.1 ∉ held.map Prod.fst := by
      intro entry member known
      exact fresh entry member (by rw [List.map_append]; exact List.mem_append_left _ known)
    cases found : held.lookup first.1 with
    | some value =>
      simp only [newcomers, found]
      exact ⟨freshHeld, distinct⟩
    | none =>
      simp only [newcomers, found, List.map_cons, List.nodup_cons]
      refine ⟨?_, ?_, distinct⟩
      · intro entry member
        rcases List.mem_cons.mp member with rfl | later
        · exact lookup_eq_none_iff_not_mem.mp found
        · exact freshHeld entry later
      · intro repeated
        obtain ⟨entry, member, same⟩ := List.mem_map.mp repeated
        refine fresh entry member ?_
        rw [same, List.map_append]
        simp

/-- Residents with distinct keys stay so. -/
theorem nodup_residents {held : List (κ × α)} (incoming : List (κ × α))
    (distinct : (held.map Prod.fst).Nodup) :
    ((held ++ newcomers held incoming).map Prod.fst).Nodup := by
  obtain ⟨fresh, nodup⟩ := newcomers_keys held incoming
  rw [List.map_append, List.nodup_append]
  refine ⟨distinct, nodup, ?_⟩
  rintro key known other newcomer rfl
  obtain ⟨entry, member, same⟩ := List.mem_map.mp newcomer
  exact fresh entry member (same ▸ known)

/-- Nothing is lost by storing newcomers only. -/
theorem lookup_residents (held incoming : List (κ × α)) (key : κ) :
    (held ++ newcomers held incoming).lookup key = (held ++ incoming).lookup key := by
  induction incoming generalizing held with
  | nil => rfl
  | cons first rest ih =>
    have later := ih (held ++ [first])
    rw [List.append_assoc, List.append_assoc, List.singleton_append, List.singleton_append] at later
    rw [← later]
    cases found : held.lookup first.1 with
    | none => simp only [newcomers, found]
    | some value =>
      rw [newcomers, found, List.lookup_append, List.lookup_append]
      by_cases same : key = first.1
      · subst same
        simp [found]
      · rw [lookup_cons_of_ne same]

/-! ## Records that arrive -/

section Records

variable {L : Type w} {entry : L → κ × α} {found : L → Option α} {held : List (κ × α)}

omit [LawfulBEq κ] in
/-- The newcomers are the records that found nothing. -/
theorem newcomers_of_arrivals {records : List L}
    (same : records.map found = arrivals held (records.map entry)) :
    newcomers held (records.map entry) =
      (records.filter fun record => (found record).isNone).map entry := by
  induction records generalizing held with
  | nil => rfl
  | cons first rest ih =>
    obtain ⟨firstFinds, restFinds⟩ := List.cons.inj same
    have later := ih restFinds
    cases lookup : held.lookup (entry first).1 with
    | none =>
      rw [lookup] at firstFinds
      simp only [List.map_cons, newcomers, lookup, later, firstFinds, List.filter_cons,
        Option.isNone_none, if_true]
    | some value =>
      rw [lookup] at firstFinds
      simp only [List.map_cons, newcomers, lookup, later, firstFinds, List.filter_cons,
        Option.isNone_some, Bool.false_eq_true, if_false]

omit [LawfulBEq κ] in
/-- What holds of all records holds of the first ones, and the next one looks among them. -/
theorem arrivals_split {before after : List L} {record : L}
    (same : (before ++ record :: after).map found =
      arrivals held ((before ++ record :: after).map entry)) :
    before.map found = arrivals held (before.map entry) ∧
      found record = (held ++ before.map entry).lookup (entry record).1 := by
  induction before generalizing held with
  | nil =>
    obtain ⟨finds, _⟩ := List.cons.inj same
    exact ⟨rfl, by rw [finds, List.map_nil, List.append_nil]⟩
  | cons first rest ih =>
    obtain ⟨firstFinds, restFinds⟩ := List.cons.inj same
    obtain ⟨earlier, finds⟩ := ih restFinds
    refine ⟨?_, ?_⟩
    · rw [List.map_cons, earlier, firstFinds]
      rfl
    · rw [finds, List.append_assoc]
      rfl

/-- What a record finds is held, or was brought by an earlier newcomer with its key. -/
theorem mem_of_found {before after : List L} {record : L} {value : α}
    (same : (before ++ record :: after).map found =
      arrivals held ((before ++ record :: after).map entry))
    (finds : found record = some value) :
    ((entry record).1, value) ∈ held ++ (before.filter fun other =>
      (found other).isNone).map entry := by
  obtain ⟨earlier, looksUp⟩ := arrivals_split same
  rw [← newcomers_of_arrivals earlier]
  refine mem_of_lookup ?_
  rw [lookup_residents, ← looksUp, finds]

/-- Where a record ends up: with what it found, or on its own. -/
def home (found : L → Option α) (entry : L → κ × α) (record : L) : α :=
  (found record).getD (entry record).2

section Homes

variable {records : List L} (same : records.map found = arrivals held (records.map entry))
include same

/-- A record ends up where its key is found, among all entries. -/
theorem lookup_eq_home {record : L} (member : record ∈ records) :
    (held ++ records.map entry).lookup (entry record).1 = some (home found entry record) := by
  obtain ⟨before, after, rfl⟩ := List.append_of_mem member
  have finds := (arrivals_split same).2
  have itself : (entry record :: after.map entry).lookup (entry record).1 =
      some (entry record).2 := by
    rw [List.lookup_cons, beq_self_eq_true]
  rw [List.map_append, List.map_cons, ← List.append_assoc, List.lookup_append, ← finds, home,
    itself]
  cases found record <;> rfl

theorem mem_residents_home {record : L} (member : record ∈ records) :
    ((entry record).1, home found entry record) ∈
      held ++ (records.filter fun record => (found record).isNone).map entry := by
  rw [← newcomers_of_arrivals same]
  refine mem_of_lookup ?_
  rw [lookup_residents]
  exact lookup_eq_home same member

/-- Records end up together exactly when they have the same key. -/
theorem home_eq_iff (distinct : ((held ++ (records.filter fun record =>
      (found record).isNone).map entry).map Prod.snd).Nodup)
    {first last : L} (firstMember : first ∈ records) (lastMember : last ∈ records) :
    home found entry first = home found entry last ↔ (entry first).1 = (entry last).1 := by
  constructor
  · intro together
    have entries := List.inj_on_of_nodup_map distinct (mem_residents_home same firstMember)
      (mem_residents_home same lastMember) together
    exact (Prod.mk.inj entries).1
  · intro sameKey
    have finds := lookup_eq_home same firstMember
    rw [sameKey, lookup_eq_home same lastMember] at finds
    exact (Option.some.inj finds).symm

/-- A record ends up with a held entry exactly when its key finds that entry. -/
theorem home_eq_held_iff (distinct : ((held ++ (records.filter fun record =>
      (found record).isNone).map entry).map Prod.snd).Nodup)
    {record : L} (member : record ∈ records) {resident : κ × α} (isHeld : resident ∈ held) :
    home found entry record = resident.2 ↔ held.lookup (entry record).1 = some resident.2 := by
  have whole := lookup_eq_home same member
  rw [List.lookup_append] at whole
  constructor
  · intro together
    have entries := List.inj_on_of_nodup_map distinct (mem_residents_home same member)
      (List.mem_append_left _ isHeld) together
    cases finds : held.lookup (entry record).1 with
    | none =>
      refine absurd ?_ (lookup_eq_none_iff_not_mem.mp finds)
      exact List.mem_map.mpr ⟨resident, isHeld, (congrArg Prod.fst entries).symm⟩
    | some value =>
      rw [finds, Option.some_or] at whole
      rw [whole, together]
  · intro finds
    rw [finds, Option.some_or] at whole
    exact (Option.some.inj whole).symm

/-- There is one newcomer for each key that is not held. -/
theorem card_newKeys [DecidableEq κ] :
    ((records.map fun record => (entry record).1).toFinset \ (held.map Prod.fst).toFinset).card =
      (records.filter fun record => (found record).isNone).length := by
  obtain ⟨fresh, distinct⟩ := newcomers_keys held (records.map entry)
  have newcomer := newcomers_of_arrivals same
  have keys : (records.map fun record => (entry record).1).toFinset \
      (held.map Prod.fst).toFinset = ((newcomers held (records.map entry)).map Prod.fst).toFinset := by
    ext key
    rw [Finset.mem_sdiff, List.mem_toFinset, List.mem_toFinset, List.mem_toFinset]
    constructor
    · rintro ⟨arrives, unheld⟩
      obtain ⟨record, member, rfl⟩ := List.mem_map.mp arrives
      have resident := mem_residents_home same member
      rw [← newcomer] at resident
      rcases List.mem_append.mp resident with isHeld | isNew
      · exact absurd (List.mem_map_of_mem isHeld) unheld
      · exact List.mem_map.mpr ⟨_, isNew, rfl⟩
    · intro isNew
      obtain ⟨resident, member, rfl⟩ := List.mem_map.mp isNew
      refine ⟨?_, fresh resident member⟩
      obtain ⟨record, recordMember, rfl⟩ := List.mem_map.mp (newcomers_subset _ _ _ member)
      exact List.mem_map_of_mem recordMember
  rw [keys, List.toFinset_card_of_nodup distinct, List.length_map, newcomer, List.length_map]

end Homes

end Records

/-! ## Maps that answer -/

section Maps

variable {κ : Type u} {α : Type v} [LinearOrder κ] [BEq κ] [LawfulBEq κ]

/-- The map finds under every key what the first entry with that key says. -/
def Indexes (map : OrderedMap κ α) (entries : List (κ × α)) : Prop :=
  ∀ key : κ, map[key]? = entries.lookup key

namespace Indexes

variable {map : OrderedMap κ α} {entries : List (κ × α)} {key : κ} {value : α}

omit [LawfulBEq κ] in
theorem empty : Indexes (∅ : OrderedMap κ α) [] := by
  intro key
  simp

/-- `entry(key).or_insert(value)`. -/
theorem insertIfNew (indexed : Indexes map entries) :
    Indexes (map.insertIfNew key value) (entries ++ [(key, value)]) := by
  intro other
  rw [OrderedMap.get_insertIfNew, indexed key, indexed other, List.lookup_append]
  by_cases same : other = key
  · subst same
    cases entries.lookup other <;> simp
  · rw [lookup_cons_of_ne same]
    simp [Ne.symm same]

/-- A newcomer is stored. -/
theorem insert_of_none (indexed : Indexes map entries) (absent : entries.lookup key = none) :
    Indexes (map.insert key value) (entries ++ [(key, value)]) := by
  intro other
  rw [OrderedMap.get_insert, indexed other, List.lookup_append]
  by_cases same : other = key
  · subst same
    simp [absent]
  · rw [lookup_cons_of_ne same]
    simp [Ne.symm same]

/-- An entry that joins another need not be stored. -/
theorem concat_of_some {known : α} (indexed : Indexes map entries)
    (found : entries.lookup key = some known) : Indexes map (entries ++ [(key, value)]) := by
  intro other
  rw [indexed other, List.lookup_append]
  by_cases same : other = key
  · subst same
    simp [found]
  · rw [lookup_cons_of_ne same]
    simp

/-- Plain insertion makes the last entry the first one found. -/
theorem insert (indexed : Indexes map entries) :
    Indexes (map.insert key value) ((key, value) :: entries) := by
  intro other
  rw [OrderedMap.get_insert, indexed other]
  by_cases same : other = key
  · subst same
    simp
  · rw [lookup_cons_of_ne same, if_neg (Ne.symm same)]

end Indexes

end Maps

/-! ## Comparing indexes -/

section Compare

variable {κ' : Type w} [BEq κ'] [LawfulBEq κ']

theorem lookup_map {entries : List (κ × α)} {digest : κ → κ'} {key : κ}
    (injective : ∀ other ∈ entries.map Prod.fst, digest other = digest key → other = key) :
    (entries.map fun entry => (digest entry.1, entry.2)).lookup (digest key) =
      entries.lookup key := by
  induction entries with
  | nil => rfl
  | cons first rest ih =>
    have later := ih (List.forall_mem_cons.mp injective).2
    by_cases same : key = first.1
    · subst same
      obtain ⟨key, value⟩ := first
      simp
    · have different : digest key ≠ digest first.1 := by
        intro collides
        exact same (injective first.1 (by simp) collides.symm).symm
      rw [List.map_cons, lookup_cons_of_ne different, lookup_cons_of_ne same, later]

/-- Digests that do not collide on the keys at hand answer like the keys. -/
theorem arrivals_map {held incoming : List (κ × α)} {digest : κ → κ'}
    (injective : Set.InjOn digest {key | key ∈ (held ++ incoming).map Prod.fst}) :
    arrivals (held.map fun entry => (digest entry.1, entry.2))
        (incoming.map fun entry => (digest entry.1, entry.2)) = arrivals held incoming := by
  induction incoming generalizing held with
  | nil => rfl
  | cons first rest ih =>
    have later := @ih (held ++ [first]) (by simpa using injective)
    rw [List.map_append] at later
    simp only [List.map_cons, arrivals]
    rw [lookup_map, ← later]
    · rfl
    · intro other member same
      refine injective ?_ ?_ same
      · simp only [Set.mem_ofPred_eq, List.map_append]
        exact List.mem_append_left _ member
      · simp

omit [LawfulBEq κ] in
/-- Two indexes with the same keys answer alike if and only if they do at the start. -/
theorem arrivals_eq_iff {held other incoming : List (κ × α)}
    (keys : ∀ key, held.lookup key = none ↔ other.lookup key = none) :
    arrivals held incoming = arrivals other incoming ↔
      ∀ entry ∈ incoming, held.lookup entry.1 = other.lookup entry.1 := by
  suffices general : ∀ arrived : List (κ × α),
      arrivals (held ++ arrived) incoming = arrivals (other ++ arrived) incoming ↔
        ∀ entry ∈ incoming, held.lookup entry.1 = other.lookup entry.1 by
    simpa using general []
  induction incoming with
  | nil => simp [arrivals]
  | cons first rest ih =>
    intro arrived
    simp only [arrivals, List.cons.injEq, List.append_assoc, ih, List.forall_mem_cons,
      List.lookup_append]
    refine and_congr_left fun _ => ?_
    have both := keys first.1
    cases heldFinds : held.lookup first.1 with
    | none =>
      rw [both.mp heldFinds]
      exact iff_of_true rfl rfl
    | some value =>
      cases otherFinds : other.lookup first.1 with
      | none =>
        rw [both.mpr otherFinds] at heldFinds
        cases heldFinds
      | some _ => simp

/-- The first and the last entry with a key agree exactly when there are not two of
them. The values are distinct, so that entries are told apart by them. -/
theorem lookup_reverse_eq_iff {entries : List (κ × α)} {key : κ}
    (distinct : (entries.map Prod.snd).Nodup) :
    entries.lookup key = entries.reverse.lookup key ↔
      ∀ first ∈ entries, ∀ last ∈ entries, first.1 = key → last.1 = key → first.2 = last.2 := by
  cases found : entries.lookup key with
  | none =>
    have absent := lookup_eq_none_iff_not_mem.mp found
    have absentReverse : entries.reverse.lookup key = none := by
      rw [lookup_eq_none_iff_not_mem, List.map_reverse, List.mem_reverse]
      exact absent
    rw [absentReverse]
    refine iff_of_true rfl ?_
    intro first member _ _ same
    exact absurd (List.mem_map.mpr ⟨first, member, same⟩) absent
  | some value =>
    obtain ⟨before, after, rfl, unseen⟩ := List.lookup_eq_some_iff.mp found
    have reversed : (before ++ (key, value) :: after).reverse.lookup key =
        (after.reverse.lookup key).or (some value) := by
      simp [List.lookup_append]
    rw [reversed]
    constructor
    · intro same
      have onlyOne : ∀ entry ∈ before ++ (key, value) :: after, entry.1 = key →
          entry.2 = value := by
        intro entry member keyed
        rcases List.mem_append.mp member with earlier | later
        · have differs := unseen entry earlier
          rw [keyed] at differs
          simp at differs
        · rcases List.mem_cons.mp later with rfl | last
          · rfl
          · cases lookup : after.reverse.lookup key with
            | none =>
              have absent := lookup_eq_none_iff_not_mem.mp lookup
              rw [List.map_reverse, List.mem_reverse] at absent
              exact absurd (List.mem_map.mpr ⟨entry, last, keyed⟩) absent
            | some other =>
              rw [lookup] at same
              simp only [Option.some_or, Option.some.injEq] at same
              have member := mem_of_lookup lookup
              rw [List.mem_reverse, ← same] at member
              rw [List.map_append, List.map_cons, List.nodup_append] at distinct
              have notAfter := (List.nodup_cons.mp distinct.2.1).1
              exact absurd (List.mem_map.mpr ⟨(key, value), member, rfl⟩) notAfter
      intro first firstMember last lastMember firstKey lastKey
      rw [onlyOne first firstMember firstKey, onlyOne last lastMember lastKey]
    · intro unique
      cases lookup : after.reverse.lookup key with
      | none => rfl
      | some other =>
        have member := mem_of_lookup lookup
        rw [List.mem_reverse] at member
        have agree := unique (key, value) (by simp) (key, other)
          (List.mem_append_right _ (List.mem_cons_of_mem _ member)) rfl rfl
        simp only at agree
        rw [agree]
        rfl

end Compare

end Foundation
