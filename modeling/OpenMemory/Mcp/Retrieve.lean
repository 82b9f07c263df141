import OpenMemory.Engine.DomainReads
import OpenMemory.Foundation.Promotion

/-!
# Ranked results

A retrieval ranks rows of entities and of texts. A row whose entity was superseded gives way to a
row of its newest successor: the successor is pulled up from below, or read from the memory, and
the row itself stays behind it with a note.
-/

namespace OpenMemory.Mcp

open Foundation OpenMemory.Graph OpenMemory.Engine

/-- The route that a result came by. -/
inductive Route where
  | gloss
  | content
  | traversal
  | supersession

/-- One ranked result. -/
structure Item where
  /-- The id and the name of an entity. -/
  entity : Option (String × String)
  entityType : Option EntityType
  uri : Option String
  snippet : String
  score : Option Float32Bits
  route : Route
  via : Option String
  supersededBy : Option String

def Item.key (item : Item) : String :=
  match item.entity, item.uri with
  | some (_, name), _ => "entity:" ++ name
  | none, some uri => "uri:" ++ uri
  | none, none => "snippet:" ++ item.snippet

def snippetOf (text : String) : String :=
  if text.length ≤ 240 then text else String.ofList (text.toList.take 240) ++ "…"

def supersessionChainCap : Nat := 8

/-- The entity that supersedes another, by the first such edge. -/
def nextSuccessor (memory : DomainMemory) (current : String) : Option String :=
  ((memory.getEntityRelations current).find? fun r =>
    r.relationType == "supersedes" && r.toEntity == current).map StoredRelation.fromEntity

/-- The loop of `resolve_successor_chain`. -/
def followChain (memory : DomainMemory) : Nat → String → List String → String
  | 0, current, _ => current
  | hops + 1, current, visited =>
    match nextSuccessor memory current with
    | none => current
    | some next =>
      -- a cycle: it stops at the last hop that is not part of one
      if visited.contains next then current
      else followChain memory hops next (visited ++ [next])

def resolveSuccessorChain (memory : DomainMemory) (entityId : String) : Option String :=
  let current := followChain memory supersessionChainCap entityId [entityId]
  if current = entityId then none else some current

/-- A row of the entity of an id. -/
def Item.isOf (id : String) (item : Item) : Bool := item.entity.any fun entity => entity.1 == id

def Item.annotated (item : Item) (successor : String) : Item :=
  { item with supersededBy := some successor }

/-- A row of a successor that was not among the results. -/
def materialize (memory : DomainMemory) (stale : Item) (successorId : String) (name : String)
    (entityType : Option EntityType) : Item where
  entity := some (successorId, name)
  entityType := entityType
  uri := none
  snippet := snippetOf ((((memory.getEntityObservations successorId).find? fun o =>
    !o.tombstoned).map fun o => o.content).getD "")
  score := none
  route := .supersession
  via := some ("supersedes " ++ stale.key)
  supersededBy := none

/-- The loop of `promote_successors`, from an index on. It has none where it would not return. -/
def promoteFrom (memory : DomainMemory) : Nat → Nat → List Item → Nat → Option (List Item × Nat)
  | 0, i, items, promotions => if i < items.length then none else some (items, promotions)
  | rounds + 1, i, items, promotions =>
    match items[i]? with
    | none => some (items, promotions)
    | some item =>
      match item.entity with
      | none => promoteFrom memory rounds (i + 1) items promotions
      | some (entityId, _) =>
        if item.supersededBy.isSome then promoteFrom memory rounds (i + 1) items promotions
        else match resolveSuccessorChain memory entityId with
          | none => promoteFrom memory rounds (i + 1) items promotions
          | some successorId =>
            match memory.getEntityById successorId with
            | none => promoteFrom memory rounds (i + 1) items promotions
            | some successor =>
              let items := items.set i (item.annotated successor.name)
              if (items.take i).any (Item.isOf successorId) then
                promoteFrom memory rounds (i + 1) items promotions
              else
                match (items.drop (i + 1)).findIdx? (Item.isOf successorId) with
                | some offset =>
                  match items[i + 1 + offset]? with
                  | none => none
                  | some promoted =>
                    promoteFrom memory rounds (i + 2)
                      ((items.eraseIdx (i + 1 + offset)).insertIdx i promoted)
                      (promotions + 1)
                | none =>
                  promoteFrom memory rounds (i + 2)
                    (items.insertIdx i (materialize memory item successorId
                      successor.name (some successor.entityType)))
                    (promotions + 1)

def promoteSuccessors (memory : DomainMemory) (items : List Item) : Option (List Item × Nat) :=
  promoteFrom memory items.length 0 items 0

/-! ## The loop is a pass -/

/-- The successor of a row that is not annotated, if it is known. -/
def Item.successor (memory : DomainMemory) (item : Item) : Option String :=
  if item.supersededBy.isSome then none
  else (item.entity.bind fun entity => resolveSuccessorChain memory entity.1).filter fun id =>
    (memory.getEntityById id).isSome

theorem followChain_ne {memory : DomainMemory} {id other : String}
    (found : resolveSuccessorChain memory id = some other) : other ≠ id := by
  unfold resolveSuccessorChain at found
  dsimp only at found
  split at found
  · cases found
  · rename_i apart
    cases found
    exact apart

/-- Rows give way to their successors. -/
def promotion (memory : DomainMemory) : Promotion Item String where
  key item := item.entity.map Prod.fst
  successor := Item.successor memory
  annotate item s := item.annotated (((memory.getEntityById s).map Entity.name).getD "")
  fresh item s := materialize memory item s (((memory.getEntityById s).map Entity.name).getD "")
    ((memory.getEntityById s).map Entity.entityType)
  key_annotate _ _ := rfl
  key_fresh _ _ := rfl
  successor_ne item s next := by
    unfold Item.successor at next
    split at next
    · cases next
    · obtain ⟨found, -⟩ := Option.filter_eq_some_iff.mp next
      obtain ⟨entity, held, resolved⟩ := Option.bind_eq_some_iff.mp found
      rw [held]
      intro same
      exact followChain_ne resolved (Option.some.inj same).symm

theorem Item.isOf_eq (memory : DomainMemory) (s : String) :
    Item.isOf s = (promotion memory).isOf s := by
  funext item
  unfold Item.isOf Promotion.isOf
  cases item with
  | mk entity =>
    cases entity with
    | none => exact (decide_eq_false nofun).symm
    | some entity =>
      change (entity.1 == s) = decide (some entity.1 = some s)
      rw [Bool.eq_iff_iff, beq_iff_eq, decide_eq_true_eq, Option.some_inj]

theorem insertIdx_length {α : Type} (above rest : List α) (x : α) :
    (above ++ rest).insertIdx above.length x = above ++ x :: rest := by
  induction above with
  | nil => exact List.insertIdx_zero
  | cons first above ih =>
    rw [List.cons_append, List.length_cons, List.insertIdx_succ_cons, ih, List.cons_append]

theorem find?_of_findIdx? {α : Type} {rest : List α} {q : α → Bool} {offset : Nat}
    (first : rest.findIdx? q = some offset) :
    rest.find? q = rest[offset]? ∧ rest.eraseP q = rest.eraseIdx offset := by
  constructor
  · rw [List.find?_eq_bind_findIdx?_getElem?, first]
    rfl
  · rw [List.eraseP_eq_eraseIdx, first]

/-- **A round of the loop**, in terms of the rows above and below. -/
theorem promoteFrom_round (memory : DomainMemory) (above rest : List Item) (row : Item)
    (rounds promotions : Nat) :
    promoteFrom memory (rounds + 1) above.length (above ++ row :: rest) promotions =
      match row.successor memory with
      | none => promoteFrom memory rounds (above.length + 1) (above ++ row :: rest) promotions
      | some s =>
        let annotated := (promotion memory).annotate row s
        if above.any (Item.isOf s) then
          promoteFrom memory rounds (above.length + 1) (above ++ annotated :: rest) promotions
        else match rest.find? (Item.isOf s) with
          | some found => promoteFrom memory rounds (above.length + 2)
              (above ++ found :: annotated :: rest.eraseP (Item.isOf s)) (promotions + 1)
          | none => promoteFrom memory rounds (above.length + 2)
              (above ++ (promotion memory).fresh row s :: annotated :: rest) (promotions + 1) := by
  have here : (above ++ row :: rest)[above.length]? = some row := by simp
  have put (x : Item) : (above ++ row :: rest).set above.length x = above ++ x :: rest := by simp
  rw [promoteFrom, here]
  simp only [put]
  rcases Option.eq_none_or_eq_some row.entity with entity | ⟨⟨id, name⟩, entity⟩
  · have none_ : row.successor memory = none := by
      unfold Item.successor
      rw [entity]
      split
      · rfl
      · rfl
    rw [none_]
    simp only [entity]
  · simp only [entity]
    by_cases annotated : row.supersededBy.isSome = true
    · have none_ : row.successor memory = none := if_pos annotated
      rw [none_, if_pos annotated]
    · have next : row.successor memory = (resolveSuccessorChain memory id).filter fun id =>
          (memory.getEntityById id).isSome := by
        unfold Item.successor
        rw [if_neg annotated, entity]
        rfl
      rw [next, if_neg annotated]
      cases chain : resolveSuccessorChain memory id with
      | none => rfl
      | some s =>
        dsimp only
        cases held : memory.getEntityById s with
        | none =>
          rw [Option.filter_some, held]
          rfl
        | some successor =>
          have noted : (promotion memory).annotate row s = row.annotated successor.name := by
            change row.annotated (((memory.getEntityById s).map Entity.name).getD "") = _
            rw [held]
            rfl
          have fresh : (promotion memory).fresh row s = materialize memory row s
              successor.name (some successor.entityType) := by
            change materialize memory row s (((memory.getEntityById s).map
              Entity.name).getD "") ((memory.getEntityById s).map Entity.entityType) = _
            rw [held]
            rfl
          have below (x : Item) : (above ++ x :: rest).drop (above.length + 1) = rest := by
            simp
          have keeps : (some s).filter (fun id => (memory.getEntityById id).isSome) = some s := by
            rw [Option.filter_some, held]
            rfl
          rw [keeps]
          dsimp only
          rw [noted, fresh, List.take_left, below, insertIdx_length]
          split
          · rfl
          · cases first : rest.findIdx? (Item.isOf s) with
            | none =>
              have absent : rest.find? (Item.isOf s) = none := by
                rw [List.find?_eq_bind_findIdx?_getElem?, first]
                rfl
              rw [absent]
            | some offset =>
              obtain ⟨found, erased⟩ := find?_of_findIdx? first
              have place (x : Item) : (above ++ x :: rest)[above.length + 1 + offset]? =
                  rest[offset]? := by
                rw [List.getElem?_append_right (by omega), show
                  above.length + 1 + offset - above.length = offset + 1 by omega]
                rfl
              have erase (x : Item) : (above ++ x :: rest).eraseIdx
                  (above.length + 1 + offset) = above ++ x :: rest.eraseIdx offset := by
                rw [List.eraseIdx_append_of_length_le (by omega), show
                  above.length + 1 + offset - above.length = offset + 1 by omega]
                rfl
              dsimp only
              rw [found, place, erase, erased]
              cases at_ : rest[offset]? with
              | none =>
                obtain ⟨inside, -⟩ := List.findIdx?_eq_some_iff_getElem.mp first
                rw [List.getElem?_eq_none_iff] at at_
                omega
              | some promoted =>
                dsimp only
                rw [insertIdx_length]

/-- **The loop returns**, with the list that the pass leaves. -/
theorem promoteFrom_eq (memory : DomainMemory) {above rest : List Item} {rounds : Nat}
    (enough : rest.length ≤ rounds) (promotions : Nat) :
    promoteFrom memory rounds above.length (above ++ rest) promotions =
      some (above ++ (promotion memory).rows ((promotion memory).pass above rest),
        promotions + ((promotion memory).pass above rest).countP Promotion.Entry.isPromotion) := by
  fun_induction Promotion.pass (promotion memory) above rest generalizing rounds promotions with
  | case1 above =>
    cases rounds with
    | zero =>
      rw [promoteFrom, if_neg (by simp)]
      rfl
    | succ rounds =>
      have outside : (above ++ [] : List Item)[above.length]? = none := by simp
      rw [promoteFrom, outside]
      rfl
  | case2 above row rest none_ ih =>
    obtain ⟨rounds, rfl⟩ := Nat.exists_eq_succ_of_ne_zero (Nat.ne_of_gt (Nat.lt_of_lt_of_le
      (Nat.succ_pos _) enough))
    have later := ih (Nat.le_of_succ_le_succ enough) promotions
    rw [List.length_append, List.append_assoc, List.append_assoc] at later
    have next : row.successor memory = none := none_
    rw [promoteFrom_round, next]
    exact later
  | case3 above row rest s succ ranked ih =>
    obtain ⟨rounds, rfl⟩ := Nat.exists_eq_succ_of_ne_zero (Nat.ne_of_gt (Nat.lt_of_lt_of_le
      (Nat.succ_pos _) enough))
    have later := ih (Nat.le_of_succ_le_succ enough) promotions
    rw [List.length_append, List.append_assoc, List.append_assoc] at later
    have next : row.successor memory = some s := succ
    rw [promoteFrom_round, next]
    dsimp only
    rw [Item.isOf_eq memory, if_pos ranked]
    exact later
  | case4 above row rest s succ unranked found first ih =>
    obtain ⟨rounds, rfl⟩ := Nat.exists_eq_succ_of_ne_zero (Nat.ne_of_gt (Nat.lt_of_lt_of_le
      (Nat.succ_pos _) enough))
    have shorter : (rest.eraseP ((promotion memory).isOf s)).length ≤ rounds :=
      Nat.le_trans (List.eraseP_sublist.length_le) (Nat.le_of_succ_le_succ enough)
    have later := ih shorter (promotions + 1)
    rw [List.length_append, List.append_assoc, List.append_assoc, Nat.add_right_comm] at later
    have next : row.successor memory = some s := succ
    rw [promoteFrom_round, next]
    dsimp only
    rw [Item.isOf_eq memory, if_neg unranked, first, List.countP_cons_of_pos rfl,
      List.countP_cons_of_neg Bool.false_ne_true]
    exact later
  | case5 above row rest s succ unranked none_ ih =>
    obtain ⟨rounds, rfl⟩ := Nat.exists_eq_succ_of_ne_zero (Nat.ne_of_gt (Nat.lt_of_lt_of_le
      (Nat.succ_pos _) enough))
    have later := ih (Nat.le_of_succ_le_succ enough) (promotions + 1)
    rw [List.length_append, List.append_assoc, List.append_assoc, Nat.add_right_comm] at later
    have next : row.successor memory = some s := succ
    rw [promoteFrom_round, next]
    dsimp only
    rw [Item.isOf_eq memory, if_neg unranked, none_, List.countP_cons_of_pos rfl,
      List.countP_cons_of_neg Bool.false_ne_true]
    exact later

end OpenMemory.Mcp
