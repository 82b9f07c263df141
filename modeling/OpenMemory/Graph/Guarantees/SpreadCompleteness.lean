import OpenMemory.Graph.Spreading

/-!
# What spreading activation leaves out

The limit of a neighbour's query is what is still wanted, but the filters come after the
query. So rows that do not count may take the places of rows that do. And a row is
marked as seen before its score is looked at, so a weak first relation to its entity
hides it from a stronger one.

With no more eligible rows than are wanted, all of them are found in every order exactly
where no first visit is hindered in any order. With more of them, that is still enough
to find as many as are wanted; which ones these are may depend on the order.
-/

namespace OpenMemory.Graph

open Foundation

variable {entity : String} {row : JoinedRow}

namespace Spread

variable {S : Type} {spread : Spread S}

/-! ## Rows -/

theorem mem_rowsOf :
    row ∈ spread.rowsOf entity ↔ row ∈ spread.content.joined ∧ spread.isLive entity row = true := by
  unfold rowsOf
  rw [List.mem_insertionSort, List.mem_filter]

theorem entityId_of_mem (member : row ∈ spread.rowsOf entity) : row.row.entityId = entity := by
  have live := (mem_rowsOf.mp member).2
  simp only [isLive, Bool.and_eq_true, decide_eq_true_eq] at live
  exact live.1.1.1

/-- An observation is joined with one entity at most. -/
theorem nodup_joined {content : RecallContent} (keyed : content.Keyed) :
    (content.joined.map fun joined => joined.row.id).Nodup := by
  have short (row : RecallRow) : (content.entities.filter fun entity =>
      decide (entity.id = row.entityId)).length ≤ 1 := by
    have distinct := keyed.entities.sublist
      ((List.filter_sublist (l := content.entities)
        (p := fun entity => decide (entity.id = row.entityId))).map EntityRow.id)
    have same : ∀ id ∈ (content.entities.filter fun entity =>
        decide (entity.id = row.entityId)).map EntityRow.id, id = row.entityId := by
      intro id member
      obtain ⟨entity, inside, rfl⟩ := List.mem_map.mp member
      exact of_decide_eq_true (List.mem_filter.mp inside).2
    rw [List.eq_replicate_iff.mpr ⟨rfl, same⟩, List.nodup_replicate, List.length_map] at distinct
    exact distinct
  refine List.Nodup.sublist ?_ keyed.observations
  unfold RecallContent.joined
  generalize content.observations = observations
  induction observations with
  | nil => exact List.Sublist.refl _
  | cons row rest ih =>
    rw [List.flatMap_cons, List.map_append, List.map_cons, ← List.singleton_append]
    refine List.Sublist.append ?_ ih
    rw [List.map_map]
    have single := short row
    cases found : content.entities.filter fun entity => decide (entity.id = row.entityId) with
    | nil => exact List.nil_sublist _
    | cons entity others =>
      rw [found, List.length_cons] at single
      rw [List.length_eq_zero_iff.mp (Nat.le_zero.mp (Nat.le_of_succ_le_succ single))]
      exact List.Sublist.refl _

theorem nodup_rowsOf (keyed : spread.content.Keyed) (entity : String) :
    ((spread.rowsOf entity).map fun row => row.row.id).Nodup := by
  have sorted := List.perm_insertionSort (fun a b : JoinedRow => b.row.observedAt ≤ a.row.observedAt)
    (spread.content.joined.filter (spread.isLive entity))
  unfold rowsOf
  rw [(sorted.map _).nodup_iff]
  exact (nodup_joined keyed).sublist (List.filter_sublist.map _)

/-- Rows with one id are one row. -/
theorem eq_of_id (keyed : spread.content.Keyed) {other : JoinedRow}
    (first : row ∈ spread.content.joined) (second : other ∈ spread.content.joined)
    (same : row.row.id = other.row.id) : row = other :=
  List.inj_on_of_nodup_map (nodup_joined keyed) first second same

theorem limit_anti {found more : Nat} (grown : found ≤ more) :
    spread.limit more ≤ spread.limit found := by
  unfold limit
  omega

/-! ## One visit -/

variable [Preorder S] [DecidableLT S] [CaseMapping] {state : Spreading S}
  {order : List (String × S)} {rows : List JoinedRow} {base : S}

/-- **The rows of a first visit**, of which none has been seen unless it is a seed. The
loop goes on with all that count, or returns when enough of them are there. -/
theorem foldlM_fresh (distinct : (rows.map fun row => row.row.id).Nodup)
    (room : state.found.length < spread.maxExtra)
    (fresh : ∀ row ∈ rows, row.row.id ∈ state.seen ↔ row.row.id ∈ spread.seedIds) :
    Settles
      (fun later =>
        state.found.length + (rows.filter (spread.counts base)).length < spread.maxExtra ∧
          later.found = state.found ++ (rows.filter (spread.counts base)).map (spread.extra base) ∧
          ∀ id, id ∈ later.seen ↔
            id ∈ state.seen ∨ ∃ row ∈ rows, spread.passes row = true ∧ row.row.id = id)
      (fun found =>
        spread.maxExtra ≤ state.found.length + (rows.filter (spread.counts base)).length ∧
          found = (state.found ++
            (rows.filter (spread.counts base)).map (spread.extra base)).take spread.maxExtra)
      (rows.foldlM (spread.rowStep base) state) := by
  induction rows generalizing state with
  | nil => exact ⟨room, (List.append_nil _).symm, fun id => by simp⟩
  | cons row rest ih =>
    rw [List.map_cons, List.nodup_cons] at distinct
    have others : ∀ other ∈ rest, other.row.id ≠ row.row.id := fun other member same =>
      distinct.1 (same ▸ List.mem_map_of_mem member)
    have freshRest := (List.forall_mem_cons.mp fresh).2
    rw [List.foldlM_cons]
    unfold rowStep
    by_cases passes : spread.passes row = true
    · rw [if_neg (by simp [passes])]
      by_cases seen : row.row.id ∈ state.seen
      · -- a seed
        have seeded := (fresh row List.mem_cons_self).mp seen
        have out : ¬ spread.counts base row = true := by
          unfold counts
          simp [seeded]
        rw [if_pos seen, List.filter_cons_of_neg out]
        have tail := ih distinct.2 room freshRest
        refine settles_imp tail (fun later held => ⟨held.1, held.2.1, fun id => ?_⟩)
          fun _ held => held
        rw [held.2.2 id]
        constructor
        · rintro (before | ⟨other, member, found⟩)
          · exact .inl before
          · exact .inr ⟨other, List.mem_cons_of_mem _ member, found⟩
        · rintro (before | ⟨other, member, found⟩)
          · exact .inl before
          · rcases List.mem_cons.mp member with rfl | member
            · exact .inl (found.2 ▸ seen)
            · exact .inr ⟨other, member, found⟩
      · rw [if_neg seen]
        have unseeded : row.row.id ∉ spread.seedIds := fun seeded =>
          seen ((fresh row List.mem_cons_self).mpr seeded)
        have freshAfter : ∀ other ∈ rest,
            other.row.id ∈ row.row.id :: state.seen ↔ other.row.id ∈ spread.seedIds := by
          intro other member
          rw [List.mem_cons, or_iff_right (others other member)]
          exact freshRest other member
        have seenAfter : ∀ id, (id ∈ row.row.id :: state.seen ∨
            ∃ other ∈ rest, spread.passes other = true ∧ other.row.id = id) ↔
            (id ∈ state.seen ∨
              ∃ other ∈ row :: rest, spread.passes other = true ∧ other.row.id = id) := by
          intro id
          rw [List.mem_cons, or_assoc, or_left_comm]
          refine or_congr_right ⟨?_, ?_⟩
          · rintro (rfl | ⟨other, member, found⟩)
            · exact ⟨row, List.mem_cons_self, passes, rfl⟩
            · exact ⟨other, List.mem_cons_of_mem _ member, found⟩
          · rintro ⟨other, member, found⟩
            rcases List.mem_cons.mp member with rfl | member
            · exact .inl found.2.symm
            · exact .inr ⟨other, member, found⟩
        by_cases low : spread.host.computeScore row.observation base spread.validAt <
            spread.host.spreadMinScore
        · have out : ¬ spread.counts base row = true := by
            unfold counts
            simp [low]
          rw [if_pos low, List.filter_cons_of_neg out]
          have tail := @ih { state with seen := row.row.id :: state.seen } distinct.2 room
            freshAfter
          exact settles_imp tail (fun later held => ⟨held.1, held.2.1, fun id =>
            (held.2.2 id).trans (seenAfter id)⟩) fun _ held => held
        · have counted : spread.counts base row = true := by
            unfold counts
            simp [passes, unseeded, low]
          rw [if_neg low, List.filter_cons_of_pos counted, List.length_cons, List.map_cons]
          dsimp only
          rw [List.length_append, List.length_singleton]
          by_cases full : spread.maxExtra ≤ state.found.length + 1
          · rw [if_pos full]
            refine ⟨by omega, ?_⟩
            have exact_ : spread.maxExtra = state.found.length + 1 := by omega
            rw [exact_, List.take_append]
            simp
          · rw [if_neg full]
            have tail := @ih ⟨row.row.id :: state.seen, state.found ++ [spread.extra base row]⟩
              distinct.2 (by simpa using full) freshAfter
            refine settles_imp tail (fun later held => ⟨?_, ?_, fun id =>
              (held.2.2 id).trans (seenAfter id)⟩) fun found held => ⟨?_, ?_⟩
            · have length := held.1
              simp only [List.length_append, List.length_singleton] at length
              omega
            · rw [held.2.1, List.append_assoc, List.singleton_append]
            · have length := held.1
              simp only [List.length_append, List.length_singleton] at length
              omega
            · rw [held.2, List.append_assoc, List.singleton_append]
    · rw [if_pos (by simpa using passes)]
      have out : ¬ spread.counts base row = true := by
        unfold counts
        simp [passes]
      rw [List.filter_cons_of_neg out]
      have tail := ih distinct.2 room freshRest
      refine settles_imp tail (fun later held => ⟨held.1, held.2.1, fun id => ?_⟩)
        fun _ held => held
      rw [held.2.2 id]
      refine or_congr_right ⟨?_, ?_⟩
      · rintro ⟨other, member, found⟩
        exact ⟨other, List.mem_cons_of_mem _ member, found⟩
      · rintro ⟨other, member, found⟩
        rcases List.mem_cons.mp member with rfl | member
        · exact absurd found.1 passes
        · exact ⟨other, member, found⟩

/-- A visit whose rows have all been seen adds nothing. -/
theorem foldlM_seen (seen : ∀ row ∈ rows, spread.passes row = true → row.row.id ∈ state.seen) :
    rows.foldlM (spread.rowStep base) state = .ok state := by
  induction rows with
  | nil => rfl
  | cons row rest ih =>
    have head : spread.rowStep base state row = .ok state := by
      unfold rowStep
      by_cases passes : spread.passes row = true
      · rw [if_neg (by simp [passes]), if_pos (seen row List.mem_cons_self passes)]
      · rw [if_pos (by simpa using passes)]
    rw [List.foldlM_cons, head]
    exact ih (List.forall_mem_cons.mp seen).2

/-! ## First visits -/

omit [Preorder S] [DecidableLT S] [CaseMapping] in
theorem freshVisits_concat (done : List String) (before : List (Visit S)) (visit : Visit S) :
    freshVisits done (before ++ [visit]) = freshVisits done before ++
      if visit.1 ∈ done ∨ visit.1 ∈ before.map Prod.fst then [] else [visit] := by
  induction before generalizing done with
  | nil =>
    by_cases again : visit.1 ∈ done <;> simp [freshVisits, again]
  | cons first rest ih =>
    rw [List.cons_append, freshVisits, freshVisits]
    by_cases again : first.1 ∈ done
    · rw [if_pos again, if_pos again, ih]
      congr 1
      refine if_congr ?_ rfl rfl
      rw [List.map_cons, List.mem_cons]
      constructor
      · rintro (known | later)
        · exact .inl known
        · exact .inr (.inr later)
      · rintro (known | same | later)
        · exact .inl known
        · exact .inl (same ▸ again)
        · exact .inr later
    · rw [if_neg again, if_neg again, ih, List.cons_append]
      congr 2
      refine if_congr ?_ rfl rfl
      rw [List.map_cons, List.mem_cons, List.mem_cons, or_assoc, or_left_comm]

variable {before after : List (Visit S)} {visit : Visit S} {result : RecallResult S}

omit [Preorder S] [DecidableLT S] [CaseMapping] in
theorem freshVisits_again (again : visit.1 ∈ before.map Prod.fst) :
    freshVisits [] (before ++ [visit]) = freshVisits [] before := by
  rw [freshVisits_concat, if_pos (.inr again), List.append_nil]

omit [Preorder S] [DecidableLT S] [CaseMapping] in
theorem freshVisits_first (first : visit.1 ∉ before.map Prod.fst) :
    freshVisits [] (before ++ [visit]) = freshVisits [] before ++ [visit] := by
  rw [freshVisits_concat, if_neg (by simpa using first)]

theorem expected_first (first : visit.1 ∉ before.map Prod.fst) :
    spread.expected (before ++ [visit]) = spread.expected before ++
      ((spread.rowsOf visit.1).filter (spread.counts visit.2)).map (spread.extra visit.2) := by
  unfold expected
  rw [freshVisits_first first, List.flatMap_append, List.flatMap_singleton]

theorem eligibleBefore_first (first : visit.1 ∉ before.map Prod.fst) :
    spread.eligibleBefore (before ++ [visit]) =
      spread.eligibleBefore before + (spread.eligibleAt visit.1).length := by
  unfold eligibleBefore
  rw [freshVisits_first first, List.flatMap_append, List.flatMap_singleton, List.length_append]

/-- What is expected begins with what is expected of fewer visits. -/
theorem expected_starts (before after : List (Visit S)) :
    ∃ more, spread.expected (before ++ after) = spread.expected before ++ more := by
  induction after generalizing before with
  | nil => exact ⟨[], by rw [List.append_nil, List.append_nil]⟩
  | cons visit rest ih =>
    obtain ⟨more, same⟩ := ih (before ++ [visit])
    rw [List.append_assoc, List.singleton_append] at same
    by_cases again : visit.1 ∈ before.map Prod.fst
    · refine ⟨more, same.trans ?_⟩
      unfold expected
      rw [freshVisits_again again]
    · rw [expected_first again, List.append_assoc] at same
      exact ⟨_, same⟩

theorem eligibleBefore_mono (before after : List (Visit S)) :
    spread.eligibleBefore before ≤ spread.eligibleBefore (before ++ after) := by
  induction after generalizing before with
  | nil => rw [List.append_nil]
  | cons visit rest ih =>
    have step : spread.eligibleBefore before ≤ spread.eligibleBefore (before ++ [visit]) := by
      by_cases again : visit.1 ∈ before.map Prod.fst
      · unfold eligibleBefore
        rw [freshVisits_again again]
      · rw [eligibleBefore_first again]
        exact Nat.le_add_right _ _
    have later := ih (before ++ [visit])
    rw [List.append_assoc, List.singleton_append] at later
    exact step.trans later

/-! ## Following the visits -/

def idsOf (found : List (RecallResult S)) : List String :=
  found.map fun result => result.observation.id

/-- The state after visits that all went on, of which none was hindered. -/
structure Tracks (spread : Spread S) (before : List (Visit S)) (state : Spreading S) : Prop where
  room : state.found.length < spread.maxExtra
  found : state.found = spread.expected before
  length : state.found.length = spread.eligibleBefore before
  seeds : ∀ id ∈ spread.seedIds, id ∈ state.seen
  seen : ∀ id ∈ state.seen, id ∈ spread.seedIds ∨ ∃ entity ∈ before.map Prod.fst,
    ∃ row ∈ spread.rowsOf entity, row.row.id = id
  done : ∀ entity ∈ before.map Prod.fst,
    ∀ row ∈ (spread.rowsOf entity).take (spread.limit state.found.length),
      spread.passes row = true → row.row.id ∈ state.seen
  whole : ∀ entity ∈ before.map Prod.fst, ∀ row ∈ spread.eligibleAt entity,
    row.row.id ∈ idsOf state.found

theorem tracks_start (some_ : 0 < spread.maxExtra) : Tracks spread [] spread.start where
  room := some_
  found := rfl
  length := rfl
  seeds _ member := member
  seen _ member := .inl member
  done _ member := by cases member
  whole _ member := by cases member

/-- The rows that a first visit reads have not been seen, unless they are seeds. -/
theorem Tracks.fresh (keyed : spread.content.Keyed) (tracks : Tracks spread before state)
    (first : entity ∉ before.map Prod.fst) :
    ∀ row ∈ spread.rowsOf entity, row.row.id ∈ state.seen ↔ row.row.id ∈ spread.seedIds := by
  intro row member
  refine ⟨fun seen => ?_, tracks.seeds _⟩
  rcases tracks.seen _ seen with seeded | ⟨other, visited, held, inside, same⟩
  · exact seeded
  · have equal := eq_of_id keyed (mem_rowsOf.mp inside).1 (mem_rowsOf.mp member).1 same
    rw [← entityId_of_mem member, ← equal, entityId_of_mem inside] at first
    exact absurd visited first

/-- A visit to a neighbour that was visited before adds nothing. -/
theorem Tracks.again
    (tracks : Tracks spread before state) (visited : visit.1 ∈ before.map Prod.fst) :
    spread.visitStep state visit = .ok state ∧ Tracks spread (before ++ [visit]) state := by
  refine ⟨foldlM_seen fun row member passes => tracks.done visit.1 visited row member passes,
    tracks.room, ?_, ?_, tracks.seeds, fun id seen => ?_, fun entity member => ?_,
    fun entity member => ?_⟩
  · rw [tracks.found]
    unfold expected
    rw [freshVisits_again visited]
  · rw [tracks.length]
    unfold eligibleBefore
    rw [freshVisits_again visited]
  · refine (tracks.seen id seen).imp_right fun ⟨entity, member, held⟩ => ⟨entity, ?_, held⟩
    rw [List.map_append]
    exact List.mem_append_left _ member
  · rw [List.map_append, List.map_singleton, List.mem_append, List.mem_singleton] at member
    rcases member with member | rfl
    · exact tracks.done entity member
    · exact tracks.done _ visited
  · rw [List.map_append, List.map_singleton, List.mem_append, List.mem_singleton] at member
    rcases member with member | rfl
    · exact tracks.whole entity member
    · exact tracks.whole _ visited

theorem eligible_of_counts (member : visit ∈ spread.visits (seedEntities spread.seeds))
    (inside : row ∈ spread.rowsOf visit.1) (counts : spread.counts visit.2 row = true) :
    row ∈ spread.eligibleAt visit.1 := by
  refine List.mem_filter.mpr ⟨inside, List.any_eq_true.mpr ⟨visit, member, ?_⟩⟩
  rw [Bool.and_eq_true]
  exact ⟨(mem_rowsOf.mp inside).2, counts⟩

/-- Where a visit takes every eligible row, it takes all rows that count. -/
theorem picked_eq (keyed : spread.content.Keyed) {found : Nat}
    (member : visit ∈ spread.visits (seedEntities spread.seeds))
    (all : ∀ row ∈ spread.eligibleAt visit.1, row ∈ spread.picked found visit) :
    spread.picked found visit = (spread.rowsOf visit.1).filter (spread.counts visit.2) ∧
      spread.picked found visit = spread.eligibleAt visit.1 := by
  have distinct : (spread.rowsOf visit.1).Nodup := (nodup_rowsOf keyed visit.1).of_map _
  have sublist : (spread.picked found visit).Sublist
      ((spread.rowsOf visit.1).filter (spread.counts visit.2)) :=
    (List.take_sublist _ _).filter _
  have same : (spread.rowsOf visit.1).filter (spread.counts visit.2) =
      spread.eligibleAt visit.1 := by
    refine List.filter_congr fun row inside => Bool.eq_iff_iff.mpr ⟨fun counts => ?_,
      fun eligible => ?_⟩
    · exact (List.mem_filter.mp (eligible_of_counts member inside counts)).2
    · exact (List.mem_filter.mp (all row (List.mem_filter.mpr ⟨inside, eligible⟩))).2
  have whole : spread.picked found visit =
      (spread.rowsOf visit.1).filter (spread.counts visit.2) := by
    refine sublist.eq_of_length_le ?_
    refine ((distinct.filter _).subperm fun row inside => all row ?_).length_le
    rwa [← same]
  exact ⟨whole, whole.trans same⟩

/-- **A first visit** takes the rows it picks, or as many of them as are wanted. -/
theorem Tracks.first (keyed : spread.content.Keyed)
    (tracks : Tracks spread before state) (first : visit.1 ∉ before.map Prod.fst) : Settles
      (fun later =>
        spread.eligibleBefore before +
            (spread.picked (spread.eligibleBefore before) visit).length < spread.maxExtra ∧
          later.found = spread.expected before ++
            (spread.picked (spread.eligibleBefore before) visit).map (spread.extra visit.2) ∧
          ∀ id, id ∈ later.seen ↔ id ∈ state.seen ∨
            ∃ row ∈ (spread.rowsOf visit.1).take (spread.limit (spread.eligibleBefore before)),
              spread.passes row = true ∧ row.row.id = id)
      (fun found =>
        spread.maxExtra ≤ spread.eligibleBefore before +
            (spread.picked (spread.eligibleBefore before) visit).length ∧
          found = (spread.expected before ++
            (spread.picked (spread.eligibleBefore before) visit).map
              (spread.extra visit.2)).take spread.maxExtra)
      (spread.visitStep state visit) := by
  have rows := @foldlM_fresh S spread _ _ _ state
    ((spread.rowsOf visit.1).take (spread.limit state.found.length)) visit.2
    ((nodup_rowsOf keyed visit.1).sublist ((List.take_sublist _ _).map _)) tracks.room
    fun row member => tracks.fresh keyed first row (List.mem_of_mem_take member)
  rw [tracks.length, tracks.found] at rows
  unfold visitStep
  rw [tracks.length]
  exact rows

/-- A first visit that is not hindered goes on with all that is expected so far, or ends
with the beginning of what is expected at all. -/
theorem Tracks.step (keyed : spread.content.Keyed) {before : List (Visit S)} {visit : Visit S}
    (tracks : Tracks spread before state)
    (member : visit ∈ spread.visits (seedEntities spread.seeds))
    (first : visit.1 ∉ before.map Prod.fst)
    (unhindered : (∀ row ∈ spread.eligibleAt visit.1,
        row ∈ spread.picked (spread.eligibleBefore before) visit) ∨
      spread.maxExtra ≤ spread.eligibleBefore before +
        (spread.picked (spread.eligibleBefore before) visit).length) :
    Settles (Tracks spread (before ++ [visit]))
      (fun found => (∀ after,
          found = (spread.expected (before ++ visit :: after)).take spread.maxExtra) ∧
        found.length = spread.maxExtra)
      (spread.visitStep state visit) := by
  refine settles_imp (tracks.first keyed first) ?_ ?_
  · rintro later ⟨room, found, seen⟩
    have all := unhindered.resolve_right (Nat.not_le_of_lt room)
    obtain ⟨whole, eligible⟩ := picked_eq keyed member all
    have lengths : later.found.length = spread.eligibleBefore (before ++ [visit]) := by
      rw [eligibleBefore_first first, found, List.length_append, ← tracks.found, tracks.length,
        List.length_map, eligible]
    have more : spread.eligibleBefore before ≤ later.found.length := by
      rw [lengths, eligibleBefore_first first]
      exact Nat.le_add_right _ _
    refine ⟨?_, ?_, lengths, fun id seeded => (seen id).mpr (.inl (tracks.seeds id seeded)), ?_,
      ?_, ?_⟩
    · rw [lengths, eligibleBefore_first first, ← eligible]
      exact room
    · rw [expected_first first, found, whole]
    · intro id held
      rcases (seen id).mp held with old | ⟨row, inside, _, same⟩
      · refine (tracks.seen id old).imp_right fun ⟨entity, visited, rest⟩ => ⟨entity, ?_, rest⟩
        rw [List.map_append]
        exact List.mem_append_left _ visited
      · refine .inr ⟨visit.1, ?_, row, List.mem_of_mem_take inside, same⟩
        rw [List.map_append]
        exact List.mem_append_right _ List.mem_cons_self
    · intro entity visited row inside passes
      rw [List.map_append, List.map_singleton, List.mem_append, List.mem_singleton] at visited
      rcases visited with visited | rfl
      · refine (seen _).mpr (.inl (tracks.done entity visited row ?_ passes))
        exact List.take_subset_take_left _ (limit_anti (tracks.length.trans_le more)) inside
      · refine (seen _).mpr (.inr ⟨row, ?_, passes, rfl⟩)
        exact List.take_subset_take_left _ (limit_anti more) inside
    · intro entity visited row inside
      rw [List.map_append, List.map_singleton, List.mem_append, List.mem_singleton] at visited
      unfold idsOf
      rw [found, ← tracks.found, List.map_append, List.mem_append]
      rcases visited with visited | rfl
      · exact .inl (tracks.whole entity visited row inside)
      · exact .inr (List.mem_map_of_mem (List.mem_map_of_mem (all row inside)))
  · rintro found ⟨full, same⟩
    have enough : spread.maxExtra ≤ (spread.expected before ++
        (spread.picked (spread.eligibleBefore before) visit).map
          (spread.extra visit.2)).length := by
      rw [List.length_append, ← tracks.found, tracks.length, List.length_map]
      exact full
    refine ⟨fun after => ?_, same ▸ List.length_take_of_le enough⟩
    -- what is picked comes first among what counts
    obtain ⟨rest, split⟩ : ∃ rest, (spread.rowsOf visit.1).filter (spread.counts visit.2) =
        spread.picked (spread.eligibleBefore before) visit ++ rest := by
      refine ⟨((spread.rowsOf visit.1).drop (spread.limit (spread.eligibleBefore before))).filter
        (spread.counts visit.2), ?_⟩
      unfold picked
      rw [← List.filter_append, List.take_append_drop]
    obtain ⟨more, whole⟩ := @expected_starts S spread _ _ _ (before ++ [visit]) after
    rw [List.append_assoc, List.singleton_append, expected_first first, split, List.map_append,
      ← List.append_assoc, List.append_assoc] at whole
    rw [whole, same]
    exact (List.take_append_of_le_length enough).symm

/-- **Visits that are not hindered** find the beginning of what first visits would find
without a limit, and all eligible rows unless they find enough. -/
theorem outcome_of_unhindered (keyed : spread.content.Keyed) (tracks : Tracks spread before state)
    (members : ∀ visit ∈ after, visit ∈ spread.visits (seedEntities spread.seeds))
    (unhindered : spread.Unhindered before after) : outcome (after.foldlM spread.visitStep state) =
        (spread.expected (before ++ after)).take spread.maxExtra ∧
      ((outcome (after.foldlM spread.visitStep state)).length = spread.maxExtra ∨
        ∀ entity ∈ (before ++ after).map Prod.fst, ∀ row ∈ spread.eligibleAt entity,
          row.row.id ∈ idsOf (outcome (after.foldlM spread.visitStep state))) := by
  induction after generalizing before state with
  | nil =>
    rw [List.append_nil, ← tracks.found]
    exact ⟨(List.take_of_length_le tracks.room.le).symm, .inr tracks.whole⟩
  | cons visit rest ih =>
    have later := (List.forall_mem_cons.mp members).2
    have joined : before ++ visit :: rest = before ++ [visit] ++ rest := by
      rw [List.append_assoc, List.singleton_append]
    rw [List.foldlM_cons]
    by_cases visited : visit.1 ∈ before.map Prod.fst
    · obtain ⟨same, tracks⟩ := tracks.again visited
      rw [same, joined]
      exact ih tracks later unhindered.2
    · have step := tracks.step keyed (members visit List.mem_cons_self) visited
        (unhindered.1 visited (tracks.length ▸ tracks.room))
      cases result : spread.visitStep state visit with
      | error found =>
        rw [result] at step
        exact ⟨step.1 rest, .inl step.2⟩
      | ok next =>
        rw [result] at step
        rw [joined]
        exact ih step later unhindered.2

/-! ## Only what counts is found -/

/-- The results come from rows that count by a visit, each once. -/
structure Sound (spread : Spread S) (visits : List (Visit S)) (found : List (RecallResult S)) :
    Prop where
  counted : ∀ result ∈ found, ∃ visit ∈ visits, ∃ row ∈ spread.rowsOf visit.1,
    spread.counts visit.2 row = true ∧ result = spread.extra visit.2 row
  once : (idsOf found).Nodup

theorem Sound.nil {visits : List (Visit S)} : Sound spread visits [] :=
  ⟨by rintro _ ⟨⟩, List.nodup_nil⟩

/-- What a state has found is sound, and has been seen like the seeds. -/
structure SoundState (spread : Spread S) (visits : List (Visit S)) (state : Spreading S) : Prop where
  found : Sound spread visits state.found
  seeds : ∀ id ∈ spread.seedIds, id ∈ state.seen
  seen : ∀ id ∈ idsOf state.found, id ∈ state.seen

theorem rowStep_sound {visits : List (Visit S)} (member : visit ∈ visits)
    (inside : row ∈ spread.rowsOf visit.1) (sound : SoundState spread visits state) :
    Settles (SoundState spread visits) (Sound spread visits)
      (spread.rowStep visit.2 state row) := by
  unfold rowStep
  split
  next => exact sound
  next passes =>
    split
    next => exact sound
    next unseen =>
      split
      next =>
        exact ⟨sound.found, fun id seeded => List.mem_cons_of_mem _ (sound.seeds id seeded),
          fun id found => List.mem_cons_of_mem _ (sound.seen id found)⟩
      next enough =>
        have ids : idsOf (state.found ++ [spread.extra visit.2 row]) =
            idsOf state.found ++ [row.row.id] := List.map_append
        have more : Sound spread visits (state.found ++ [spread.extra visit.2 row]) := by
          refine ⟨fun result held => ?_, ?_⟩
          · rcases List.mem_append.mp held with old | new
            · exact sound.found.counted result old
            · refine ⟨visit, member, row, inside, ?_, List.mem_singleton.mp new⟩
              unfold counts
              rw [Bool.and_eq_true, Bool.and_eq_true, Bool.not_eq_true',
                decide_eq_false_iff_not, decide_eq_true_iff]
              exact ⟨⟨by simpa using passes, fun seeded => unseen (sound.seeds _ seeded)⟩, enough⟩
          · rw [ids, List.nodup_append]
            refine ⟨sound.found.once, List.nodup_singleton _, ?_⟩
            rintro id old _ new rfl
            rw [List.mem_singleton] at new
            exact unseen (new ▸ sound.seen id old)
        dsimp only
        split
        next => exact more
        next =>
          refine ⟨more, fun id seeded => List.mem_cons_of_mem _ (sound.seeds id seeded), ?_⟩
          intro id held
          dsimp only at held
          rw [ids, List.mem_append, List.mem_singleton] at held
          rcases held with old | rfl
          · exact List.mem_cons_of_mem _ (sound.seen id old)
          · exact List.mem_cons_self

theorem run_sound : Sound spread (spread.visits order) (spread.run order) := by
  rw [run_eq]
  split
  next => exact .nil
  next =>
    have settled : Settles (SoundState spread (spread.visits order))
        (Sound spread (spread.visits order))
        ((spread.visits order).foldlM spread.visitStep spread.start) := by
      refine settles_foldlM ⟨.nil, fun _ member => member, fun _ member => by cases member⟩ ?_
      intro visit member state sound
      refine settles_foldlM sound fun row inside state sound => ?_
      exact rowStep_sound member (List.mem_of_mem_take inside) sound
    cases result : (spread.visits order).foldlM spread.visitStep spread.start with
    | error found =>
      rw [result] at settled
      exact settled
    | ok state =>
      rw [result] at settled
      exact settled.found

omit [CaseMapping] in
/-- The visits are the same in every order, but for their order. -/
theorem mem_visits (perm : order.Perm (seedEntities spread.seeds)) :
    visit ∈ spread.visits order ↔ visit ∈ spread.visits (seedEntities spread.seeds) :=
  (perm.flatMap_right _).mem_iff

/-- Whatever is found is eligible. -/
theorem eligible_of_run (perm : order.Perm (seedEntities spread.seeds))
    (member : result ∈ spread.run order) :
    ∃ row ∈ spread.content.joined, spread.eligible row = true ∧
      result.observation = row.observation := by
  obtain ⟨visit, visited, row, inside, counts, rfl⟩ := run_sound.counted result member
  have eligible := eligible_of_counts ((mem_visits perm).mp visited) inside counts
  exact ⟨row, (mem_rowsOf.mp inside).1, (List.mem_filter.mp eligible).2, rfl⟩

/-! ## What is lost -/

/-- A row has not been found and will not be. -/
def Lost (spread : Spread S) (row : JoinedRow) (state : Spreading S) : Prop :=
  row.row.id ∉ idsOf state.found ∧ (row.row.id ∈ state.seen ∨
    row ∉ (spread.rowsOf row.row.entityId).take (spread.limit state.found.length))

omit [Preorder S] [DecidableLT S] [CaseMapping] in
theorem idsOf_extra (found : List (RecallResult S)) (row : JoinedRow) :
    idsOf (found ++ [spread.extra base row]) = idsOf found ++ [row.row.id] :=
  List.map_append

/-- A row that was lost stays so when other rows are read, or it is read again. -/
theorem rowStep_lost {other : JoinedRow} {before : Nat}
    (known : other.row.id = row.row.id → row.row.id ∈ state.seen)
    (lost : row.row.id ∉ idsOf state.found) (grown : before ≤ state.found.length) :
    Settles (fun later => row.row.id ∉ idsOf later.found ∧ before ≤ later.found.length ∧
        ∀ id ∈ state.seen, id ∈ later.seen)
      (fun found => row.row.id ∉ idsOf found) (spread.rowStep base state other) := by
  unfold rowStep
  split
  next => exact ⟨lost, grown, fun _ seen => seen⟩
  next =>
    split
    next => exact ⟨lost, grown, fun _ seen => seen⟩
    next unseen =>
      split
      next => exact ⟨lost, grown, fun _ seen => List.mem_cons_of_mem _ seen⟩
      next =>
        have still : row.row.id ∉ idsOf (state.found ++ [spread.extra base other]) := by
          rw [idsOf_extra, List.mem_append, List.mem_singleton]
          rintro (old | same)
          · exact lost old
          · exact unseen (same ▸ known same.symm)
        dsimp only
        split
        next => exact still
        next =>
          refine ⟨still, ?_, fun _ seen => List.mem_cons_of_mem _ seen⟩
          rw [List.length_append]
          exact grown.trans (Nat.le_add_right _ _)

theorem visitStep_lost (keyed : spread.content.Keyed)
    (stored : row ∈ spread.content.joined) (lost : Lost spread row state) (visit : Visit S) :
    Settles (Lost spread row) (fun found => row.row.id ∉ idsOf found)
      (spread.visitStep state visit) := by
  have rows : Settles
      (fun later : Spreading S => row.row.id ∉ idsOf later.found ∧
        state.found.length ≤ later.found.length ∧ ∀ id ∈ state.seen, id ∈ later.seen)
      (fun found => row.row.id ∉ idsOf found) (spread.visitStep state visit) := by
    refine settles_foldlM ⟨lost.1, le_rfl, fun _ seen => seen⟩ fun other inside later held => ?_
    have read := List.mem_of_mem_take inside
    refine settles_imp (rowStep_lost (fun same => ?_) held.1 held.2.1)
      (fun last next => ⟨next.1, next.2.1, fun id seen => next.2.2 id (held.2.2 id seen)⟩)
      fun _ next => next
    have equal := eq_of_id keyed (mem_rowsOf.mp read).1 stored same
    subst equal
    refine held.2.2 _ (lost.2.resolve_right (not_not.mpr ?_))
    rw [entityId_of_mem read]
    exact inside
  refine settles_imp rows (fun later held => ⟨held.1, ?_⟩) fun _ held => held
  refine lost.2.imp (fun seen => held.2.2 _ seen) fun out inside => out ?_
  exact List.take_subset_take_left _ (limit_anti held.2.1) inside

/-- **A row that was lost** is not among the results. -/
theorem outcome_lost (keyed : spread.content.Keyed)
    (stored : row ∈ spread.content.joined) (lost : Lost spread row state) (after : List (Visit S)) :
    row.row.id ∉ idsOf (outcome (after.foldlM spread.visitStep state)) := by
  have settled : Settles (Lost spread row) (fun found => row.row.id ∉ idsOf found)
      (after.foldlM spread.visitStep state) :=
    settles_foldlM lost fun visit _ _ lost => visitStep_lost keyed stored lost visit
  cases result : after.foldlM spread.visitStep state with
  | error found =>
    rw [result] at settled
    exact settled
  | ok state =>
    rw [result] at settled
    exact settled.1

/-! ## Hindered visits lose rows -/

omit [Preorder S] [DecidableLT S] [CaseMapping] in
theorem mem_of_mem_freshVisits {done : List String}
    (member : visit ∈ freshVisits done before) : visit ∈ before ∧ visit.1 ∉ done := by
  induction before generalizing done with
  | nil => cases member
  | cons first rest ih =>
    unfold freshVisits at member
    split at member
    next => exact ⟨List.mem_cons_of_mem _ (ih member).1, (ih member).2⟩
    next new =>
      rcases List.mem_cons.mp member with rfl | member
      · exact ⟨List.mem_cons_self, new⟩
      · exact ⟨List.mem_cons_of_mem _ (ih member).1, fun known =>
          (ih member).2 (List.mem_cons_of_mem _ known)⟩

omit [Preorder S] [DecidableLT S] [CaseMapping] in
/-- A neighbour is visited first once. -/
theorem eq_of_mem_freshVisits {done : List String}
    {again : Visit S} (member : visit ∈ freshVisits done before)
    (other : again ∈ freshVisits done before) (same : visit.1 = again.1) : visit = again := by
  induction before generalizing done with
  | nil => cases member
  | cons first rest ih =>
    unfold freshVisits at member other
    split at member
    next known =>
      rw [if_pos known] at other
      exact ih member other
    next new =>
      rw [if_neg new] at other
      rcases List.mem_cons.mp member with rfl | member
      · rcases List.mem_cons.mp other with rfl | other
        · rfl
        · exact absurd (same ▸ List.mem_cons_self) (mem_of_mem_freshVisits other).2
      · rcases List.mem_cons.mp other with rfl | other
        · exact absurd (same ▸ List.mem_cons_self) (mem_of_mem_freshVisits member).2
        · exact ih member other

theorem mem_expected (member : result ∈ spread.expected before) :
    ∃ visit ∈ freshVisits [] before, ∃ row ∈ spread.rowsOf visit.1,
      spread.counts visit.2 row = true ∧ result = spread.extra visit.2 row := by
  obtain ⟨visit, visited, inside⟩ := List.mem_flatMap.mp member
  obtain ⟨row, kept, rfl⟩ := List.mem_map.mp inside
  exact ⟨visit, visited, row, (List.mem_filter.mp kept).1, (List.mem_filter.mp kept).2, rfl⟩

theorem length_picked_le
    (member : visit ∈ spread.visits (seedEntities spread.seeds)) (found : Nat) :
    (spread.picked found visit).length ≤ (spread.eligibleAt visit.1).length := by
  have counted : (spread.rowsOf visit.1).filter (spread.counts visit.2) =
      (spread.eligibleAt visit.1).filter (spread.counts visit.2) := by
    unfold eligibleAt
    rw [List.filter_filter]
    refine List.filter_congr fun row inside => Bool.eq_iff_iff.mpr ?_
    rw [Bool.and_eq_true]
    exact ⟨fun counts => ⟨counts, (List.mem_filter.mp
      (eligible_of_counts member inside counts)).2⟩, fun both => both.1⟩
  refine ((List.take_sublist _ _).filter _).length_le.trans ?_
  rw [counted]
  exact List.length_filter_le _ _

/-- Where enough eligible rows were passed, no visit counts as hindered any more. -/
theorem unhindered_of_full
    (full : spread.maxExtra ≤ spread.eligibleBefore before) : spread.Unhindered before after := by
  induction after generalizing before with
  | nil => trivial
  | cons visit rest ih =>
    exact ⟨fun _ room => absurd full (Nat.not_le_of_lt room),
      ih (full.trans (eligibleBefore_mono before [visit]))⟩

/-- An eligible row that its first visit does not pick is lost. -/
theorem lost_of_not_picked (keyed : spread.content.Keyed)
    {later : Spreading S} (tracks : Tracks spread before state)
    (first : visit.1 ∉ before.map Prod.fst) (eligible : row ∈ spread.eligibleAt visit.1)
    (missed : row ∉ spread.picked (spread.eligibleBefore before) visit)
    (found : later.found = spread.expected before ++
      (spread.picked (spread.eligibleBefore before) visit).map (spread.extra visit.2))
    (seen : ∀ id, id ∈ later.seen ↔ id ∈ state.seen ∨
      ∃ row ∈ (spread.rowsOf visit.1).take (spread.limit (spread.eligibleBefore before)),
        spread.passes row = true ∧ row.row.id = id) : Lost spread row later := by
  obtain ⟨inside, counted⟩ := List.mem_filter.mp eligible
  have stored := (mem_rowsOf.mp inside).1
  have entity := entityId_of_mem inside
  refine ⟨fun again => ?_, ?_⟩
  · obtain ⟨result, held, same⟩ := List.mem_map.mp again
    rw [found, List.mem_append] at held
    rcases held with old | new
    · obtain ⟨other, visited, read, from_, _, rfl⟩ := mem_expected old
      have equal := eq_of_id keyed (mem_rowsOf.mp from_).1 stored same
      rw [← entity, ← equal, entityId_of_mem from_] at first
      exact first (List.mem_map_of_mem (mem_of_mem_freshVisits visited).1)
    · obtain ⟨read, kept, rfl⟩ := List.mem_map.mp new
      have from_ := List.mem_of_mem_take (List.mem_filter.mp kept).1
      have equal := eq_of_id keyed (mem_rowsOf.mp from_).1 stored same
      exact missed (equal ▸ kept)
  · obtain ⟨by_, _, both⟩ := List.any_eq_true.mp counted
    have counts := (Bool.and_eq_true _ _ ▸ both).2
    have passes : spread.passes row = true := by
      unfold Spread.counts at counts
      rw [Bool.and_eq_true, Bool.and_eq_true] at counts
      exact counts.1.1
    by_cases read : row ∈ (spread.rowsOf visit.1).take (spread.limit (spread.eligibleBefore before))
    · exact .inl ((seen _).mpr (.inr ⟨row, read, passes, rfl⟩))
    · refine .inr fun inside => read ?_
      rw [entity] at inside
      refine List.take_subset_take_left _ (limit_anti ?_) inside
      rw [found, List.length_append, ← tracks.found, tracks.length]
      exact Nat.le_add_right _ _

/-- **Where all eligible rows are found**, no visit was hindered. -/
theorem unhindered_of_outcome (keyed : spread.content.Keyed) (tracks : Tracks spread before state)
    (members : ∀ visit ∈ after, visit ∈ spread.visits (seedEntities spread.seeds))
    (all : ∀ row ∈ spread.content.joined, spread.eligible row = true →
      row.row.id ∈ idsOf (outcome (after.foldlM spread.visitStep state))) :
    spread.Unhindered before after := by
  induction after generalizing before state with
  | nil => trivial
  | cons visit rest ih =>
    have later := (List.forall_mem_cons.mp members).2
    rw [List.foldlM_cons] at all
    by_cases visited : visit.1 ∈ before.map Prod.fst
    · obtain ⟨same, tracks⟩ := tracks.again visited
      rw [same] at all
      exact ⟨fun first => absurd visited first, ih tracks later all⟩
    · have member := members visit List.mem_cons_self
      have step := tracks.first keyed visited
      cases result : spread.visitStep state visit with
      | error found =>
        rw [result] at step
        refine ⟨fun _ _ => .inr step.1, unhindered_of_full (step.1.trans ?_)⟩
        rw [eligibleBefore_first visited]
        exact Nat.add_le_add_left (length_picked_le member _) _
      | ok next =>
        rw [result] at step all
        obtain ⟨room, found, seen⟩ := step
        have picks : ∀ row ∈ spread.eligibleAt visit.1,
            row ∈ spread.picked (spread.eligibleBefore before) visit := by
          intro row eligible
          by_contra missed
          have lost := lost_of_not_picked keyed tracks visited eligible missed found seen
          obtain ⟨inside, counted⟩ := List.mem_filter.mp eligible
          have stored := (mem_rowsOf.mp inside).1
          exact outcome_lost keyed stored lost rest (all row stored counted)
        have goes := tracks.step keyed member visited (.inl picks)
        rw [result] at goes
        exact ⟨fun _ _ => .inl picks, ih goes later all⟩

/-! ## All orders -/

/-- An observation is among the results. -/
def Finds (found : List (RecallResult S)) (observation : Observation) : Prop :=
  ∃ result ∈ found, result.observation = observation

section Statement

variable (spread)

/-- As many results as are wanted, or exactly the eligible observations. -/
def Complete (order : List (String × S)) : Prop :=
  (spread.run order).length = spread.maxExtra ∨ ∀ observation,
    Finds (spread.run order) observation ↔
      ∃ row ∈ spread.content.joined, spread.eligible row = true ∧ row.observation = observation

/-- An order in which the seed entities may come out of their hash map. -/
def Order (order : List (String × S)) : Prop := order.Perm (seedEntities spread.seeds)

/-- The same observations are found in every order. -/
def OrderFree : Prop :=
  ∀ order other, spread.Order order → spread.Order other → ∀ observation,
    Finds (spread.run order) observation ↔ Finds (spread.run other) observation

/-- The same results are found in every order, with the same scores. -/
def ScoreFree : Prop :=
  ∀ order other, spread.Order order → spread.Order other → ∀ result,
    result ∈ spread.run order ↔ result ∈ spread.run other

/-- No visit is hindered, in any order. -/
def NeverHindered : Prop :=
  ∀ order, spread.Order order → spread.Unhindered [] (spread.visits order)

/-- A neighbour with eligible rows is reached first with one score. -/
def OneScore : Prop :=
  ∀ order other, spread.Order order → spread.Order other →
    ∀ visit ∈ freshVisits [] (spread.visits order), ∀ again ∈ freshVisits [] (spread.visits other),
      visit.1 = again.1 → spread.eligibleAt visit.1 ≠ [] → visit.2 = again.2

end Statement

section

variable (ordered : spread.Order order)

include ordered

omit [CaseMapping] in
theorem members_of_order :
    ∀ visit ∈ spread.visits order, visit ∈ spread.visits (seedEntities spread.seeds) :=
  fun _ member => (mem_visits ordered).mp member

theorem eligibleAt_of_eligible
    (stored : row ∈ spread.content.joined) (eligible : spread.eligible row = true) :
    row.row.entityId ∈ (spread.visits order).map Prod.fst ∧
      row ∈ spread.eligibleAt row.row.entityId := by
  obtain ⟨visit, visited, both⟩ := List.any_eq_true.mp eligible
  have inside : row ∈ spread.rowsOf visit.1 :=
    mem_rowsOf.mpr ⟨stored, (Bool.and_eq_true _ _ ▸ both).1⟩
  rw [entityId_of_mem inside]
  exact ⟨List.mem_map_of_mem ((mem_visits ordered).mpr visited),
    List.mem_filter.mpr ⟨inside, eligible⟩⟩

variable (keyed : spread.content.Keyed)

include keyed

/-- **A run without hindered visits.** -/
theorem run_of_unhindered (unhindered : spread.Unhindered [] (spread.visits order)) :
    spread.run order = (spread.expected (spread.visits order)).take spread.maxExtra ∧
      ((spread.run order).length = spread.maxExtra ∨
        ∀ row ∈ spread.content.joined, spread.eligible row = true →
          row.row.id ∈ idsOf (spread.run order)) := by
  rw [run_eq]
  split
  next none_ =>
    rcases none_ with zero | empty
    · rw [zero, List.take_zero]
      exact ⟨rfl, .inl rfl⟩
    · have nothing : seedEntities spread.seeds = [] := by
        rw [empty]
        rfl
      have noOrder : order = [] := List.perm_nil.mp (nothing ▸ ordered)
      refine ⟨?_, .inr fun row stored eligible => ?_⟩
      · rw [noOrder]
        exact List.take_nil.symm
      · have visited := (eligibleAt_of_eligible ordered stored eligible).1
        rw [noOrder] at visited
        cases visited
  next some_ =>
    rw [not_or] at some_
    have tracks : Tracks spread [] spread.start := tracks_start (Nat.pos_of_ne_zero some_.1)
    obtain ⟨found, all⟩ := outcome_of_unhindered keyed tracks (members_of_order ordered) unhindered
    refine ⟨found, all.imp_right fun whole row stored eligible => ?_⟩
    obtain ⟨visited, inside⟩ := eligibleAt_of_eligible ordered stored eligible
    exact whole _ visited row inside

/-- Where every eligible row is found, every eligible observation is. -/
theorem finds_iff (all : ∀ row ∈ spread.content.joined, spread.eligible row = true →
      row.row.id ∈ idsOf (spread.run order)) (observation : Observation) :
    Finds (spread.run order) observation ↔
      ∃ row ∈ spread.content.joined, spread.eligible row = true ∧
        row.observation = observation := by
  constructor
  · rintro ⟨result, member, rfl⟩
    obtain ⟨row, stored, eligible, same⟩ := eligible_of_run ordered member
    exact ⟨row, stored, eligible, same.symm⟩
  · rintro ⟨row, stored, eligible, rfl⟩
    obtain ⟨result, member, same⟩ := List.mem_map.mp (all row stored eligible)
    obtain ⟨other, from_, _, equal⟩ := eligible_of_run ordered member
    rw [equal] at same
    exact ⟨result, member, equal.trans (congrArg _ (eq_of_id keyed from_ stored same))⟩

theorem complete_of_unhindered
    (unhindered : spread.Unhindered [] (spread.visits order)) : spread.Complete order :=
  (run_of_unhindered ordered keyed unhindered).2.imp_right (finds_iff ordered keyed)

omit keyed in
/-- With no more eligible rows than are wanted, a complete run finds them all. -/
theorem all_of_complete
    (few : (spread.content.joined.filter spread.eligible).length ≤ spread.maxExtra)
    (complete : spread.Complete order) : ∀ row ∈ spread.content.joined, spread.eligible row = true →
      row.row.id ∈ idsOf (spread.run order) := by
  intro row stored eligible
  rcases complete with full | exact_
  · have subset : idsOf (spread.run order) ⊆
        (spread.content.joined.filter spread.eligible).map fun joined => joined.row.id := by
      intro id member
      obtain ⟨result, held, rfl⟩ := List.mem_map.mp member
      obtain ⟨other, from_, counted, same⟩ := eligible_of_run ordered held
      rw [same]
      exact List.mem_map.mpr ⟨other, List.mem_filter.mpr ⟨from_, counted⟩, rfl⟩
    have perm := (run_sound.once.subperm subset).perm_of_length_le (by
      rw [List.length_map, idsOf, List.length_map, full]
      exact few)
    exact perm.mem_iff.mpr (List.mem_map.mpr ⟨row, List.mem_filter.mpr ⟨stored, eligible⟩, rfl⟩)
  · obtain ⟨result, member, same⟩ := (exact_ row.observation).mpr ⟨row, stored, eligible, rfl⟩
    exact List.mem_map.mpr ⟨result, member, congrArg Observation.id same⟩

theorem unhindered_of_complete
    (few : (spread.content.joined.filter spread.eligible).length ≤ spread.maxExtra)
    (complete : spread.Complete order) : spread.Unhindered [] (spread.visits order) := by
  have all := all_of_complete ordered few complete
  rw [run_eq] at all
  split at all
  next none_ =>
    rcases none_ with zero | empty
    · exact unhindered_of_full (zero.le.trans (Nat.zero_le _))
    · have nothing : seedEntities spread.seeds = [] := by
        rw [empty]
        rfl
      have noOrder : order = [] := List.perm_nil.mp (nothing ▸ ordered)
      rw [noOrder]
      trivial
  next some_ =>
    rw [not_or] at some_
    exact unhindered_of_outcome keyed (tracks_start (Nat.pos_of_ne_zero some_.1))
      (members_of_order ordered) all

/-! ## Scores -/

/-- What is found is a row with the score of the first visit of its neighbour. -/
theorem result_of_run
    (unhindered : spread.Unhindered [] (spread.visits order)) (member : result ∈ spread.run order) :
    ∃ visit ∈ freshVisits [] (spread.visits order), ∃ row ∈ spread.eligibleAt visit.1,
      result = spread.extra visit.2 row := by
  rw [(run_of_unhindered ordered keyed unhindered).1] at member
  obtain ⟨visit, fresh, row, inside, counts, rfl⟩ := mem_expected (List.mem_of_mem_take member)
  have visited := members_of_order ordered visit (mem_of_mem_freshVisits fresh).1
  exact ⟨visit, fresh, row, eligible_of_counts visited inside counts, rfl⟩

/-- Where all eligible rows are found, each is found with the score of the first visit of
its neighbour. -/
theorem extra_of_eligible (unhindered : spread.Unhindered [] (spread.visits order))
    (all : ∀ row ∈ spread.content.joined, spread.eligible row = true →
      row.row.id ∈ idsOf (spread.run order)) (eligible : row ∈ spread.eligibleAt entity) :
    ∃ visit ∈ freshVisits [] (spread.visits order), visit.1 = entity ∧
      spread.extra visit.2 row ∈ spread.run order := by
  obtain ⟨inside, counted⟩ := List.mem_filter.mp eligible
  have stored := (mem_rowsOf.mp inside).1
  obtain ⟨result, member, same⟩ := List.mem_map.mp (all row stored counted)
  obtain ⟨visit, fresh, other, from_, rfl⟩ := result_of_run ordered keyed unhindered member
  have read := (List.mem_filter.mp from_).1
  have equal := eq_of_id keyed (mem_rowsOf.mp read).1 stored same
  subst equal
  exact ⟨visit, fresh, (entityId_of_mem read).symm.trans (entityId_of_mem inside), member⟩

end

theorem scoreFree_iff (keyed : spread.content.Keyed) (never : spread.NeverHindered)
    (all : ∀ order, spread.Order order → ∀ row ∈ spread.content.joined,
      spread.eligible row = true → row.row.id ∈ idsOf (spread.run order)) :
    spread.ScoreFree ↔ spread.OneScore := by
  constructor
  · intro free order other ordered reordered visit fresh again freshly same nonempty
    obtain ⟨row, eligible⟩ := List.exists_mem_of_ne_nil _ nonempty
    obtain ⟨first, isFresh, entity, found⟩ :=
      extra_of_eligible ordered keyed (never order ordered) (all order ordered) eligible
    have moved := (free order other ordered reordered _).mp found
    obtain ⟨second, alsoFresh, held, read, equal⟩ :=
      result_of_run reordered keyed (never other reordered) moved
    have rows : row = held := by
      refine eq_of_id keyed (mem_rowsOf.mp (List.mem_filter.mp eligible).1).1
        (mem_rowsOf.mp (List.mem_filter.mp read).1).1 ?_
      exact congrArg (fun result => result.observation.id) equal
    have entities : second.1 = visit.1 := by
      rw [← entityId_of_mem (List.mem_filter.mp read).1, ← rows]
      exact entityId_of_mem (List.mem_filter.mp eligible).1
    rw [eq_of_mem_freshVisits fresh isFresh entity.symm,
      eq_of_mem_freshVisits freshly alsoFresh (same.symm.trans entities.symm)]
    exact congrArg RecallResult.rawScore equal
  · intro one
    have moves : ∀ order other, spread.Order order → spread.Order other →
        ∀ result ∈ spread.run order, result ∈ spread.run other := by
      intro order other ordered reordered result member
      obtain ⟨visit, fresh, row, eligible, rfl⟩ :=
        result_of_run ordered keyed (never order ordered) member
      obtain ⟨again, freshly, entity, found⟩ :=
        extra_of_eligible reordered keyed (never other reordered) (all other reordered) eligible
      rw [one order other ordered reordered visit fresh again freshly entity.symm
        (List.ne_nil_of_mem eligible)]
      exact found
    exact fun order other ordered reordered result =>
      ⟨moves order other ordered reordered result, moves other order reordered ordered result⟩

end Spread

section Main

variable {S : Type} [Preorder S] [DecidableLT S] [CaseMapping]

/-- **Spreading activation.** With no more eligible observations than are wanted, every
order finds exactly them if and only if no visit is hindered in any order, and finds them
with the same scores if and only if moreover every neighbour is reached first with one
score. With more of them, every order without hindered visits finds as many as are
wanted, the first ones; these are the same in every order only if the first ones are. -/
theorem spread_complete_iff {spread : Spread S} (keyed : spread.content.Keyed) :
    ((spread.content.joined.filter spread.eligible).length ≤ spread.maxExtra →
      ((∀ order, spread.Order order → spread.Complete order) ∧ spread.OrderFree ↔
          spread.NeverHindered) ∧
        ((∀ order, spread.Order order → spread.Complete order) ∧ spread.ScoreFree ↔
          spread.NeverHindered ∧ spread.OneScore)) ∧
      (spread.NeverHindered →
        (∀ order, spread.Order order → spread.Complete order) ∧
          ∀ order, spread.Order order →
            spread.run order = (spread.expected (spread.visits order)).take spread.maxExtra) := by
  refine ⟨fun few => ?_, fun never => ⟨fun order ordered => ?_, fun order ordered => ?_⟩⟩
  · have never_iff : (∀ order, spread.Order order → spread.Complete order) ↔
        spread.NeverHindered :=
      ⟨fun complete order ordered =>
        Spread.unhindered_of_complete ordered keyed few (complete order ordered),
      fun never order ordered => Spread.complete_of_unhindered ordered keyed (never order ordered)⟩
    have all (never : spread.NeverHindered) := fun order ordered =>
      Spread.all_of_complete ordered few (never_iff.mpr never order ordered)
    refine ⟨⟨fun both => never_iff.mp both.1, fun never => ⟨never_iff.mpr never, ?_⟩⟩, ?_⟩
    · intro order other ordered reordered observation
      rw [Spread.finds_iff ordered keyed (all never order ordered),
        Spread.finds_iff reordered keyed (all never other reordered)]
    · rw [never_iff]
      exact and_congr_right fun never => Spread.scoreFree_iff keyed never (all never)
  · exact Spread.complete_of_unhindered ordered keyed (never order ordered)
  · exact (Spread.run_of_unhindered ordered keyed (never order ordered)).1

end Main

/-! ## Three graphs -/

/-- The direct hit on an observation of the sample. -/
def seedOf (row : RecallRow) (score : Nat) : RecallResult Nat where
  observation := row.toObservation
  entityName := ""
  entityType := .concept
  rawScore := score
  score := score

/-- A spreading over the sample from its first observation. -/
def sampleSpread : Spread Nat where
  host := sampleHost
  content := sampleContent
  filters := .new
  names := none
  validAt := 0
  seeds := [seedOf (sampleRow "o1" "e1") 100]
  maxExtra := 1

theorem sampleSpread_complete :
    letI := caseless
    (∀ order, sampleSpread.Order order → sampleSpread.Complete order) ∧
      sampleSpread.OrderFree ∧ (sampleSpread.run (seedEntities sampleSpread.seeds)).length = 1 := by
  let case := caseless
  have keyed : sampleSpread.content.Keyed := ⟨by decide, by decide⟩
  have never : sampleSpread.NeverHindered := by
    intro order ordered
    rw [List.perm_singleton.mp ordered]
    exact ⟨fun _ _ => .inr (by decide), trivial⟩
  obtain ⟨complete, free⟩ := ((spread_complete_iff keyed).1 (by decide)).1.mpr never
  exact ⟨complete, free, by decide⟩

/-- The neighbour's latest observation comes from another source than is asked for. -/
def hiddenSpread : Spread Nat where
  host := sampleHost
  content := { sampleContent with
    observations := [sampleRow "o1" "e1", { sampleRow "o2" "e3" with source := "other" },
      sampleRow "o3" "e3"] }
  filters := { RecallFilters.new with source := some (sampleRow "o3" "e3").source }
  names := none
  validAt := 0
  seeds := [seedOf (sampleRow "o1" "e1") 100]
  maxExtra := 1

/-- Two seed entities with a neighbour each, of which one is wanted. -/
def forkedSpread : Spread Nat where
  host := sampleHost
  content :=
    { indexRepairRequired := none
      observations := [sampleRow "o1" "e1", sampleRow "o2" "e2", sampleRow "o3" "e3",
        sampleRow "o4" "e4"]
      entities := [⟨"e1", "a", "concept"⟩, ⟨"e2", "b", "concept"⟩, ⟨"e3", "c", "concept"⟩,
        ⟨"e4", "d", "concept"⟩]
      relations := [⟨"e1", "e3", .one, none⟩, ⟨"e2", "e4", .one, none⟩] }
  filters := .new
  names := none
  validAt := 0
  seeds := [seedOf (sampleRow "o1" "e1") 100, seedOf (sampleRow "o2" "e2") 90]
  maxExtra := 1

/-- The limit of a neighbour hides its eligible observation, and the order of two seed
entities decides which observation is found. -/
theorem spread_incomplete :
    letI := caseless
    (hiddenSpread.run (seedEntities hiddenSpread.seeds) = [] ∧
        (hiddenSpread.content.joined.filter hiddenSpread.eligible).length = 1) ∧
      (forkedSpread.run [("e1", 100), ("e2", 90)]).map (fun result => result.observation.id) =
          ["o3"] ∧
        (forkedSpread.run [("e2", 90), ("e1", 100)]).map (fun result => result.observation.id) =
          ["o4"] := by
  decide

end OpenMemory.Graph
