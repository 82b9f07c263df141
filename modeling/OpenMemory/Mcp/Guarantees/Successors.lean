import OpenMemory.Mcp.Retrieve

/-!
# Successors come first

Entities supersede one another. The edges are a graph over entities, each of which has a home
among the domains, and a store of the memory keeps the edges that touch its domain, with a row of
its own for every entity that occurs in them. The chain of an entity is followed from row to row
within one store.

Where each edge of a chain touches the domain that the chain is followed in, the chain is that of
the graph, and the pass over the results does for any number of domains what it does for one. An
edge that does not touch the domain is not seen. And a row that a foreign store keeps of an entity
is not known to be a row of the entity that is listed.
-/

namespace OpenMemory.Mcp

open Foundation OpenMemory.Graph OpenMemory.Engine

/-! ## Chains -/

variable {visited : List (String × EntityType)} {item : Item} {before after : List Item}

namespace Supersession

/-- An entity is known by its name and type. -/
abbrev Subject := String × EntityType

/-- A chain is followed for some hops, and not into a cycle. -/
def walk {ι : Type} [DecidableEq ι] (next : ι → Option ι) : Nat → ι → List ι → ι
  | 0, current, _ => current
  | hops + 1, current, visited =>
    match next current with
    | none => current
    | some s => if s ∈ visited then current else walk next hops s (visited ++ [s])

/-- Edges from the newer entity to the one that it supersedes. -/
abbrev Edges := List (Subject × Subject)

namespace Edges

variable (edges : Edges)

def next (e : Subject) : Option Subject := (edges.find? fun edge => decide (edge.2 = e)).map Prod.fst

/-- The newest successor of an entity. -/
def successor (e : Subject) : Option Subject :=
  let newest := walk edges.next supersessionChainCap e [e]
  if newest = e then none else some newest

def followed : Nat → Subject → List Subject → Edges
  | 0, _, _ => []
  | hops + 1, current, visited =>
    match edges.next current with
    | none => []
    | some s => (s, current) ::
        if s ∈ visited then [] else followed hops s (visited ++ [s])

/-- From an entity some edges lead to a newer one. -/
inductive Leads : Nat → Subject → Subject → Prop
  | refl (e : Subject) : Leads 0 e e
  | step {hops : Nat} {e newer newest : Subject} : (newer, e) ∈ edges → Leads hops newer newest →
      Leads (hops + 1) e newest

def Acyclic : Prop := ∀ hops e, ¬ edges.Leads (hops + 1) e e

/-- Each entity has at most one successor. -/
def AtMostOne : Prop := ∀ first second e, (first, e) ∈ edges → (second, e) ∈ edges → first = second

/-- The chain from an entity is not longer than the cap. -/
def Short (e : Subject) : Prop := ∀ hops newest, edges.Leads hops e newest →
  hops ≤ supersessionChainCap

/-- The end of the chain from an entity. -/
def IsNewest (e newest : Subject) : Prop :=
  (∃ hops, edges.Leads hops e newest) ∧ ∀ other, (other, newest) ∉ edges

structure Orderly (e : Subject) : Prop where
  acyclic : edges.Acyclic
  atMostOne : edges.AtMostOne
  short : edges.Short e

/-- An edge touches the domains of its ends. -/
def Touches (home : Subject → Nat) (domain : Nat) (edge : Subject × Subject) : Prop :=
  home edge.1 = domain ∨ home edge.2 = domain

instance (home : Subject → Nat) (domain : Nat) (edge : Subject × Subject) :
    Decidable (Touches home domain edge) :=
  inferInstanceAs (Decidable (_ ∨ _))

/-- The edges that a store keeps. -/
def within (home : Subject → Nat) (domain : Nat) : Edges :=
  edges.filter fun edge => decide (Touches home domain edge)

variable {edges} {home : Subject → Nat} {domain hops : Nat} {e s newest : Subject}

theorem mem_of_next (held : edges.next e = some s) : (s, e) ∈ edges := by
  unfold next at held
  obtain ⟨⟨newer, older⟩, found, rfl⟩ := Option.map_eq_some_iff.mp held
  have same := List.find?_some found
  rw [decide_eq_true_eq] at same
  exact same ▸ List.mem_of_find?_eq_some found

theorem next_eq_none : edges.next e = none ↔ ∀ other, (other, e) ∉ edges := by
  unfold next
  rw [Option.map_eq_none_iff, List.find?_eq_none]
  constructor
  · exact fun none_ other member => none_ _ member (decide_eq_true rfl)
  · rintro none_ ⟨newer, older⟩ member same
    rw [decide_eq_true_eq] at same
    exact none_ newer (same ▸ member)

/-- An edge that touches the domain is seen there. -/
theorem next_within (held : edges.next e = some s) (touches : Touches home domain (s, e)) :
    (edges.within home domain).next e = some s := by
  unfold next at held ⊢
  obtain ⟨edge, found, rfl⟩ := Option.map_eq_some_iff.mp held
  have same := List.find?_some found
  rw [decide_eq_true_eq] at same
  subst same
  unfold within
  rw [List.find?_filter]
  obtain ⟨-, before, after, rfl, first⟩ := List.find?_eq_some_iff_append.mp found
  have skipped : before.find? (fun other =>
      decide (decide (Touches home domain other) = true ∧ decide (other.2 = edge.2) = true)) =
      none := by
    rw [List.find?_eq_none]
    intro other member both
    have apart := first other member
    rw [decide_eq_true_eq] at both
    rw [both.2] at apart
    cases apart
  rw [List.find?_append, skipped, Option.none_or, List.find?_cons_of_pos]
  · rfl
  · rw [decide_eq_true_eq]
    exact ⟨decide_eq_true touches, decide_eq_true rfl⟩

theorem next_within_none (held : edges.next e = none) :
    (edges.within home domain).next e = none := by
  rw [next_eq_none] at held ⊢
  exact fun other member => held other (List.mem_filter.mp member).1

/-- **A chain whose edges touch a domain** is followed there as it is in the graph. -/
theorem walk_within (touch : ∀ edge ∈ edges.followed hops e visited, Touches home domain edge) :
    walk (edges.within home domain).next hops e visited = walk edges.next hops e visited := by
  induction hops generalizing e visited with
  | zero => rfl
  | succ hops ih =>
    unfold followed at touch
    unfold walk
    cases held : edges.next e with
    | none => rw [next_within_none held]
    | some s =>
      rw [held] at touch
      dsimp only at touch
      rw [next_within held (touch _ List.mem_cons_self)]
      dsimp only
      by_cases known : s ∈ visited
      · rw [if_pos known, if_pos known]
      · rw [if_neg known] at touch
        rw [if_neg known, if_neg known]
        exact ih (List.forall_mem_cons.mp touch).2

/-! ## Orderly chains -/

theorem Leads.append {first second : Nat} {middle : Subject} (left : edges.Leads first e middle)
    (right : edges.Leads second middle newest) : edges.Leads (first + second) e newest := by
  induction left with
  | refl e => rwa [Nat.zero_add]
  | step edge _ ih =>
    rw [Nat.add_right_comm]
    exact .step edge (ih right)

theorem Leads.single (edge : (s, e) ∈ edges) : edges.Leads 1 e s := .step edge (.refl s)

theorem leads_walk (visited : List Subject) :
    ∃ length, edges.Leads length e (walk edges.next hops e visited) := by
  induction hops generalizing e visited with
  | zero => exact ⟨0, .refl e⟩
  | succ hops ih =>
    unfold walk
    cases held : edges.next e with
    | none => exact ⟨0, .refl e⟩
    | some s =>
      dsimp only
      split
      · exact ⟨0, .refl e⟩
      · obtain ⟨length, leads⟩ := ih (e := s) (visited ++ [s])
        exact ⟨length + 1, .step (mem_of_next held) leads⟩

/-- The chain is followed to its end. -/
theorem walk_eq_newest (acyclic : edges.Acyclic) (one : edges.AtMostOne) {length : Nat}
    (leads : edges.Leads length e newest) (last : ∀ other, (other, newest) ∉ edges)
    (enough : length ≤ hops) (behind : ∀ v ∈ visited, ∃ between, edges.Leads between v e) :
    walk edges.next hops e visited = newest := by
  induction leads generalizing hops visited with
  | refl e =>
    cases hops with
    | zero => rfl
    | succ hops =>
      unfold walk
      rw [next_eq_none.mpr last]
  | @step length e newer newest edge leads ih =>
    cases hops with
    | zero => cases enough
    | succ hops =>
      have held : edges.next e = some newer := by
        cases found : edges.next e with
        | none => exact absurd edge (next_eq_none.mp found newer)
        | some s => rw [one s newer e (mem_of_next found) edge]
      have fresh : newer ∉ visited := by
        intro known
        obtain ⟨between, path⟩ := behind newer known
        exact acyclic between newer (path.append (.single edge))
      unfold walk
      rw [held]
      dsimp only
      rw [if_neg fresh]
      refine ih last (Nat.le_of_succ_le_succ enough) fun v member => ?_
      rcases List.mem_append.mp member with old | new
      · obtain ⟨between, path⟩ := behind v old
        exact ⟨between + 1, path.append (.single edge)⟩
      · rw [List.mem_singleton.mp new]
        exact ⟨0, .refl newer⟩

theorem exists_newest (short : edges.Short e) : ∃ newest, edges.IsNewest e newest := by
  by_contra none_
  have longer : ∀ length, ∃ far, edges.Leads length e far := by
    intro length
    induction length with
    | zero => exact ⟨e, .refl e⟩
    | succ length ih =>
      obtain ⟨far, leads⟩ := ih
      by_contra stuck
      exact none_ ⟨far, ⟨length, leads⟩, fun other edge =>
        stuck ⟨other, leads.append (.single edge)⟩⟩
  obtain ⟨far, leads⟩ := longer (supersessionChainCap + 1)
  exact absurd (short _ _ leads) (by omega)

theorem Orderly.walk_eq (orderly : edges.Orderly e) (end_ : edges.IsNewest e newest) :
    walk edges.next supersessionChainCap e [e] = newest := by
  obtain ⟨⟨length, leads⟩, last⟩ := end_
  refine walk_eq_newest orderly.acyclic orderly.atMostOne leads last
    (orderly.short _ _ leads) fun v member => ?_
  rw [List.mem_singleton.mp member]
  exact ⟨0, .refl e⟩

/-- **The successor of an entity** is the end of its chain. -/
theorem Orderly.isNewest_successor (orderly : edges.Orderly e) (held : edges.successor e = some s) :
    edges.IsNewest e s := by
  obtain ⟨newest, end_⟩ := exists_newest orderly.short
  unfold successor at held
  rw [orderly.walk_eq end_] at held
  dsimp only at held
  split at held
  · cases held
  · cases held
    exact end_

theorem successor_of_last (last : ∀ other, (other, e) ∉ edges) : edges.successor e = none := by
  unfold successor supersessionChainCap walk
  rw [next_eq_none.mpr last]
  exact if_pos rfl

end Edges

end Supersession

/-! ## Layouts -/

section Layouts

open Supersession

def subjectOf (entity : Entity) : Subject := (entity.name, entity.entityType)

/-- A store has a row of an entity. -/
def Holds (memory : DomainMemory) (domain : Nat) (id : String) (e : Subject) : Prop :=
  ∃ store entity, memory.stores[domain]? = some store ∧ store.getEntityById id = some entity ∧
    subjectOf entity = e

/-- Edges from newer entities into one row. -/
def incoming (now : Int64) (store : Database) (id : String) : List StoredRelation :=
  (store.getEntityRelations now id).filter fun r =>
    r.relationType == "supersedes" && r.toEntity == id

/-- The stores of a memory keep a graph: an id is that of one row, a store has one row of an
entity, and of the edges into an entity it keeps those that touch its domain, in their order. -/
structure Layout (edges : Edges) (home : Subject → Nat) (memory : DomainMemory) : Prop where
  alone : ∀ {domain other id e e'}, Holds memory domain id e → Holds memory other id e' →
    domain = other
  unique : ∀ {domain id id' e}, Holds memory domain id e → Holds memory domain id' e → id = id'
  incoming : ∀ {domain store id e}, memory.stores[domain]? = some store →
    Holds memory domain id e → List.Forall₂
      (fun relation edge => Holds memory domain relation.fromEntity edge.1)
      (incoming memory.now store id)
      ((edges.within home domain).filter fun edge => decide (edge.2 = e))

variable {edges : Edges} {home : Subject → Nat} {memory : DomainMemory} {domain : Nat}
  {id : String} {e : Subject}

theorem Holds.functional {e' : Subject} (held : Holds memory domain id e)
    (again : Holds memory domain id e') : e = e' := by
  obtain ⟨store, entity, here, row, rfl⟩ := held
  obtain ⟨store', entity', here', row', rfl⟩ := again
  cases here.symm.trans here'
  cases row.symm.trans row'
  rfl

theorem rel_head?_map {α β γ δ : Type} {R : γ → δ → Prop} {f : α → γ} {g : β → δ} {left : List α}
    {right : List β} (rows : List.Forall₂ (fun a b => R (f a) (g b)) left right) :
    Option.Rel R (left.head?.map f) (right.head?.map g) := by
  cases rows with
  | nil => exact .none
  | cons first rest => exact .some first

namespace Layout

variable (layout : Layout edges home memory) (held : Holds memory domain id e)

include layout held

theorem getEntityById : ∃ entity, memory.getEntityById id = some entity ∧ subjectOf entity = e := by
  cases found : memory.getEntityById id with
  | none =>
    obtain ⟨store, entity, here, row, -⟩ := held
    have absent := List.findSome?_eq_none_iff.mp found store (List.mem_of_getElem? here)
    rw [row] at absent
    cases absent
  | some entity =>
    obtain ⟨store, member, row⟩ := List.exists_of_findSome?_eq_some found
    obtain ⟨other, there⟩ := List.getElem?_of_mem member
    have held' : Holds memory other id (subjectOf entity) := ⟨store, entity, there, row, rfl⟩
    refine ⟨entity, rfl, ?_⟩
    rw [layout.alone held' held] at held'
    exact held'.functional held

theorem getEntityRelations : ∃ store, memory.stores[domain]? = some store ∧
      memory.getEntityRelations id = store.getEntityRelations memory.now id := by
  obtain ⟨store, entity, here, row, same⟩ := held
  refine ⟨store, here, ?_⟩
  unfold DomainMemory.getEntityRelations
  cases found : memory.stores.find? fun store => (store.getEntityById id).isSome with
  | none =>
    have absent := List.find?_eq_none.mp found store (List.mem_of_getElem? here)
    rw [row] at absent
    exact absurd rfl absent
  | some first =>
    have present := List.find?_some found
    obtain ⟨entity', row'⟩ := Option.isSome_iff_exists.mp present
    obtain ⟨other, there⟩ := List.getElem?_of_mem (List.mem_of_find?_eq_some found)
    have held' : Holds memory other id (subjectOf entity') := ⟨first, entity', there, row', rfl⟩
    rw [layout.alone held' ⟨store, entity, here, row, same⟩, here] at there
    cases there
    rfl

/-- **From row to row** of a store the edges are those of the graph that touch its domain. -/
theorem nextSuccessor : Option.Rel (Holds memory domain) (nextSuccessor memory id)
      ((edges.within home domain).next e) := by
  obtain ⟨store, here, relations⟩ := layout.getEntityRelations held
  have rows := layout.incoming here held
  unfold Mcp.nextSuccessor Edges.next
  rw [relations, ← List.head?_filter, ← List.head?_filter]
  exact rel_head?_map rows

/-- A chain of rows is one of the entities that they are rows of. -/
theorem followChain {hops : Nat} {visited : List (String × Subject)}
    (known : ∀ v ∈ visited, Holds memory domain v.1 v.2) :
    Holds memory domain (followChain memory hops id (visited.map Prod.fst))
      (walk (edges.within home domain).next hops e (visited.map Prod.snd)) := by
  induction hops generalizing id e visited with
  | zero => exact held
  | succ hops ih =>
    unfold Mcp.followChain walk
    have next := layout.nextSuccessor held
    cases ids : Mcp.nextSuccessor memory id with
    | none =>
      rw [ids] at next
      cases subjects : (edges.within home domain).next e with
      | none => exact held
      | some s =>
        rw [subjects] at next
        cases next
    | some other =>
      rw [ids] at next
      cases subjects : (edges.within home domain).next e with
      | none =>
        rw [subjects] at next
        cases next
      | some s =>
        rw [subjects] at next
        cases next with
        | some there =>
          have same : (visited.map Prod.fst).contains other = true ↔
              s ∈ visited.map Prod.snd := by
            rw [List.contains_iff_mem, List.mem_map, List.mem_map]
            constructor
            · rintro ⟨v, member, rfl⟩
              exact ⟨v, member, (known v member).functional there⟩
            · rintro ⟨v, member, rfl⟩
              exact ⟨v, member, layout.unique (known v member) there⟩
          dsimp only
          by_cases behind : s ∈ visited.map Prod.snd
          · rw [if_pos behind, if_pos (same.mpr behind)]
            exact held
          · rw [if_neg behind, if_neg (same.not.mpr behind)]
            have later := @ih other s there (visited ++ [(other, s)]) fun v member => by
              rcases List.mem_append.mp member with old | new
              · exact known v old
              · rw [List.mem_singleton.mp new]
                exact there
            rw [List.map_append, List.map_append] at later
            exact later

/-- **The chain of a row** ends at a row of the same store. -/
theorem resolveSuccessorChain : Option.Rel (Holds memory domain) (resolveSuccessorChain memory id)
      ((edges.within home domain).successor e) := by
  have last : Holds memory domain (Mcp.followChain memory supersessionChainCap id [id])
      (walk (edges.within home domain).next supersessionChainCap e [e]) :=
    @Layout.followChain _ _ _ _ _ _ layout held supersessionChainCap [(id, e)] fun v member => by
      rw [List.mem_singleton.mp member]
      exact held
  unfold Mcp.resolveSuccessorChain Edges.successor
  dsimp only
  by_cases same : Mcp.followChain memory supersessionChainCap id [id] = id
  · rw [if_pos same, if_pos]
    · exact .none
    · rw [same] at last
      exact last.functional held
  · rw [if_neg same, if_neg]
    · exact .some last
    · intro here
      rw [here] at last
      exact same (layout.unique last held)

end Layout

end Layouts

/-! ## Rows and entities -/

section Rows

open Supersession

def idSubject (memory : DomainMemory) (id : String) : Subject :=
  ((memory.getEntityById id).map subjectOf).getD ("", .concept)

def Item.subject (memory : DomainMemory) (item : Item) : Option Subject :=
  item.entity.map fun entity => idSubject memory entity.1

def Item.name (item : Item) : Option String := item.entity.map Prod.snd

/-- A row of an id is among some rows. -/
def Lists (memory : DomainMemory) (items : List Item) (domain : Nat) (id : String) (e : Subject) :
    Prop :=
  ∃ item ∈ items, item.entity.map Prod.fst = some id ∧ Holds memory domain id e

/-- Results of a search: no note is on them yet, and their entities are in the memory, under the
names that they have there. -/
structure Ranked (memory : DomainMemory) (items : List Item) : Prop where
  bare : ∀ item ∈ items, item.supersededBy = none
  stored : ∀ item ∈ items, ∀ id name, item.entity = some (id, name) →
    ∃ domain entityType, Holds memory domain id (name, entityType)

/-- The chains of the listed rows are seen in their domains. Rows that lead to one successor, and
those of the successor itself, are of one domain. -/
structure Aligned (edges : Edges) (home : Subject → Nat) (memory : DomainMemory)
    (items : List Item) : Prop where
  touches : ∀ domain id e, Lists memory items domain id e →
    ∀ edge ∈ edges.followed supersessionChainCap e [e], Edges.Touches home domain edge
  together : ∀ domain id e other id' e' s, Lists memory items domain id e →
    Lists memory items other id' e' → edges.successor e = some s →
      e' = s ∨ edges.successor e' = some s → domain = other

/-- The newest successor of a listed row has one row at most. -/
structure Promotable (edges : Edges) (home : Subject → Nat) (memory : DomainMemory)
    (items : List Item) : Prop extends Aligned edges home memory items where
  once : ∀ domain id e s, Lists memory items domain id e → edges.Orderly e →
    edges.successor e = some s →
      (items.countP fun item => decide (item.subject memory = some s)) ≤ 1

/-- The results without their notes. -/
def Item.plain (item : Item) : Item := { item with supersededBy := none }

/-- Results after promotion. No row is lost, and the rows that were not promoted keep their order.
A row with a note comes after one of the successor that the note names. In an orderly graph this
is the newest one, it is listed once and without a note. And the names come in the same order as
from a single store. -/
structure SuccessorsFirst (edges : Edges) (memory : DomainMemory) (items out : List Item)
    (promotions : Nat) : Prop where
  kept : ∃ marks : List (Item × Bool), out = marks.map Prod.fst ∧
    ((marks.filter fun mark => !mark.2).map fun mark => mark.1.plain).Sublist items ∧
    (marks.filter fun mark => mark.2).length = promotions ∧
    ∃ new : List Item, (out.map Item.plain).Perm (items ++ new) ∧
      ∀ item ∈ new, item.route = .supersession
  preceded : ∀ before item after name, out = before ++ item :: after →
    item.supersededBy = some name → ∃ other ∈ before, other.name = some name
  newest : ∀ before item after e, out = before ++ item :: after → item.supersededBy.isSome →
    item.subject memory = some e → edges.Orderly e →
      ∃ s, edges.IsNewest e s ∧ item.supersededBy = some s.1 ∧
        (∃ other ∈ before, other.subject memory = some s) ∧
        (∀ other ∈ out, other.subject memory = some s → other.supersededBy = none) ∧
        (out.countP fun other => decide (other.subject memory = some s)) = 1
  layouts : ∀ single items' out' promotions', Layout edges (fun _ => 0) single →
    single.stores.length = 1 → Ranked single items' →
      items'.map (Item.subject single) = items.map (Item.subject memory) →
        promoteSuccessors single items' = some (out', promotions') →
          out'.map Item.name = out.map Item.name

/-! ## The pass over entities -/

/-- What a row says of its entity. -/
def outline (memory : DomainMemory) (item : Item) : Option Subject × Bool :=
  (item.subject memory, item.supersededBy.isSome)

/-- The promotion of entities by the edges of a graph. -/
def graphPromotion (edges : Edges) : Promotion (Option Subject × Bool) Subject where
  key := Prod.fst
  successor row := if row.2 then none else row.1.bind edges.successor
  annotate row _ := (row.1, true)
  fresh _ s := (some s, false)
  key_annotate _ _ := rfl
  key_fresh _ _ := rfl
  successor_ne row s next same := by
    split at next
    · cases next
    · rw [same, Option.bind_some] at next
      unfold Edges.successor at next
      dsimp only at next
      split at next
      · cases next
      · rename_i apart
        exact apart (Option.some.inj next)

variable {edges : Edges} {home : Subject → Nat} {memory : DomainMemory} {items : List Item}
  {domain : Nat} {id : String} {e : Subject}

theorem corresponds (edges : Edges) (memory : DomainMemory) :
    (promotion memory).Corresponds (graphPromotion edges) (outline memory) (idSubject memory) where
  key item := by
    change item.entity.map _ = (item.entity.map Prod.fst).map _
    rw [Option.map_map]
    rfl
  annotate _ _ := rfl
  fresh _ _ := rfl

variable (layout : Layout edges home memory)

include layout

theorem Layout.idSubject (held : Holds memory domain id e) : Mcp.idSubject memory id = e := by
  obtain ⟨entity, found, same⟩ := layout.getEntityById held
  unfold Mcp.idSubject
  rw [found, Option.map_some, Option.getD_some, same]

theorem Layout.getName (held : Holds memory domain id e) :
    ((memory.getEntityById id).map Entity.name).getD "" = e.1 := by
  obtain ⟨entity, found, same⟩ := layout.getEntityById held
  rw [found, ← same]
  rfl

theorem subject_of_key
    (key : item.entity.map Prod.fst = some id) (held : Holds memory domain id e) :
    item.subject memory = some e := by
  obtain ⟨⟨id', name⟩, entity, rfl⟩ := Option.map_eq_some_iff.mp key
  unfold Item.subject
  rw [entity, Option.map_some, layout.idSubject held]

theorem Layout.successor_item
    (bare : item.supersededBy = none) (key : item.entity.map Prod.fst = some id)
    (held : Holds memory domain id e) : Option.Rel (Holds memory domain) (item.successor memory)
      ((edges.within home domain).successor e) := by
  obtain ⟨⟨id', name⟩, entity, rfl⟩ := Option.map_eq_some_iff.mp key
  have last := layout.resolveSuccessorChain held
  unfold Item.successor
  rw [bare, entity]
  change Option.Rel _ (Option.filter _ (Mcp.resolveSuccessorChain memory id')) _
  revert last
  generalize Mcp.resolveSuccessorChain memory id' = ids
  generalize (edges.within home domain).successor e = subjects
  intro last
  cases last with
  | none => exact .none
  | some there =>
    obtain ⟨entity', found, -⟩ := layout.getEntityById there
    rw [Option.filter_some, found]
    exact .some there

omit layout in
theorem Ranked.holds (ranked : Ranked memory items) (member : item ∈ items)
    (key : item.entity.map Prod.fst = some id) : ∃ domain e, Holds memory domain id e := by
  obtain ⟨⟨id', name⟩, entity, rfl⟩ := Option.map_eq_some_iff.mp key
  obtain ⟨domain, entityType, held⟩ := ranked.stored item member id' name entity
  exact ⟨domain, _, held⟩

/-- In an aligned list the successors are those of the graph. -/
theorem Aligned.successor (aligned : Aligned edges home memory items) (ranked : Ranked memory items)
    (member : item ∈ items) (key : item.entity.map Prod.fst = some id)
    (held : Holds memory domain id e) :
    Option.Rel (Holds memory domain) (item.successor memory) (edges.successor e) := by
  have last := layout.successor_item (ranked.bare item member) key held
  have same : (edges.within home domain).successor e = edges.successor e := by
    unfold Edges.successor
    rw [Edges.walk_within (aligned.touches domain id e ⟨item, member, key, held⟩)]
  rwa [same] at last

end Rows

/-! ## What a promotion leaves -/

section Results

open Supersession Promotion

variable {edges : Edges} {home : Subject → Nat} {memory : DomainMemory} {items : List Item}
  {domain : Nat} {id s : String} {e newest : Subject}
  {entries : List (Promotion.Entry Item String)}

/-- The results of a promotion. -/
def promoted (memory : DomainMemory) (items : List Item) : List Item :=
  (promotion memory).rows ((promotion memory).pass [] items)

def promotions (memory : DomainMemory) (items : List Item) : Nat :=
  ((promotion memory).pass [] items).countP Entry.isPromotion

/-- **The loop ends** within as many rounds as there are rows. -/
theorem promoteFrom_start (memory : DomainMemory) (items : List Item) {rounds : Nat}
    (enough : items.length ≤ rounds) : promoteFrom memory rounds 0 items 0 =
      some (promoted memory items, promotions memory items) := by
  have whole := @promoteFrom_eq memory [] items rounds enough 0
  rw [Nat.zero_add] at whole
  exact whole

theorem promoteSuccessors_eq (memory : DomainMemory) (items : List Item) :
    promoteSuccessors memory items = some (promoted memory items, promotions memory items) :=
  promoteFrom_start memory items le_rfl

theorem plain_eq (bare : item.supersededBy = none) : item.plain = item := by
  cases item
  cases bare
  rfl

def addedRow (memory : DomainMemory) : Promotion.Entry Item String → Option Item
  | .made before s => some ((promotion memory).fresh before s)
  | _ => none

section

variable (bare : ∀ item ∈ items, item.supersededBy = none)

include bare

theorem kept_eq (sound : ∀ entry ∈ entries, entry.Sound (promotion memory) items) :
    (((entries.map fun entry => (entry.row (promotion memory), entry.isPromotion)).filter
      fun mark => !mark.2).map fun mark => mark.1.plain) = entries.filterMap Entry.kept := by
  induction entries with
  | nil => rfl
  | cons first rest ih =>
    have later := ih (List.forall_mem_cons.mp sound).2
    have here := sound first List.mem_cons_self
    cases first with
    | stays row =>
      change row.plain :: _ = row :: _
      rw [later, plain_eq (bare row here.1)]
    | marked row s =>
      change row.plain :: _ = row :: _
      rw [later, plain_eq (bare row here.1)]
    | pulled row s => exact later
    | made stale s => exact later

theorem plain_perm (sound : ∀ entry ∈ entries, entry.Sound (promotion memory) items) :
    (((promotion memory).rows entries).map Item.plain).Perm
      (entries.filterMap Entry.input ++ entries.filterMap (addedRow memory)) := by
  induction entries with
  | nil => exact .nil
  | cons first rest ih =>
    have later := ih (List.forall_mem_cons.mp sound).2
    have here := sound first List.mem_cons_self
    cases first with
    | stays row =>
      have row' : row.plain = row := plain_eq (bare row here.1)
      change (row.plain :: _).Perm (row :: _)
      rw [row']
      exact later.cons row
    | marked row s =>
      have row' : row.plain = row := plain_eq (bare row here.1)
      change (row.plain :: _).Perm (row :: _)
      rw [row']
      exact later.cons row
    | pulled row s =>
      have row' : row.plain = row := plain_eq (bare row here.1)
      change (row.plain :: _).Perm (row :: _)
      rw [row']
      exact later.cons row
    | made stale s =>
      exact (later.cons _).trans List.perm_middle.symm

/-- **No result is lost**, and what is not promoted keeps its order. -/
theorem promoted_kept : ∃ marks : List (Item × Bool), promoted memory items = marks.map Prod.fst ∧
      ((marks.filter fun mark => !mark.2).map fun mark => mark.1.plain).Sublist items ∧
      (marks.filter fun mark => mark.2).length = promotions memory items ∧
      ∃ new : List Item, ((promoted memory items).map Item.plain).Perm (items ++ new) ∧
        ∀ item ∈ new, item.route = .supersession := by
  have sound : ∀ entry ∈ (promotion memory).pass [] items,
      entry.Sound (promotion memory) items := fun entry member => sound_pass member
  refine ⟨((promotion memory).pass [] items).map fun entry =>
    (entry.row (promotion memory), entry.isPromotion), ?_, ?_, ?_, ?_⟩
  · rw [List.map_map]
    rfl
  · rw [kept_eq bare sound]
    exact kept_pass [] items
  · rw [← List.countP_eq_length_filter, List.countP_map]
    rfl
  · refine ⟨((promotion memory).pass [] items).filterMap (addedRow memory), ?_, ?_⟩
    · exact (plain_perm bare sound).trans ((input_pass [] items).append_right _)
    · intro item member
      obtain ⟨entry, -, made⟩ := List.mem_filterMap.mp member
      cases entry with
      | made before s =>
        cases made
        rfl
      | _ => cases made

omit bare in
/-- A row of the results is that of an entry. -/
theorem split_promoted (split : promoted memory items = before ++ item :: after) :
    ∃ first entry last, (promotion memory).pass [] items = first ++ entry :: last ∧
      (promotion memory).rows first = before ∧ entry.row (promotion memory) = item := by
  obtain ⟨first, others, same, before', rest⟩ := List.map_eq_append_iff.mp split
  obtain ⟨entry, last, rfl, item', -⟩ := List.map_eq_cons_iff.mp rest
  exact ⟨first, entry, last, same, before', item'⟩

/-- **Only a row that names its successor** has a note. -/
theorem exists_marked {entry : Promotion.Entry Item String}
    (sound : entry.Sound (promotion memory) items)
    (noted : (entry.row (promotion memory)).supersededBy.isSome) :
    ∃ row s, entry = .marked row s := by
  cases entry with
  | stays row =>
    change row.supersededBy.isSome at noted
    rw [bare row sound.1] at noted
    cases noted
  | marked row s => exact ⟨row, s, rfl⟩
  | pulled row s =>
    change row.supersededBy.isSome at noted
    rw [bare row sound.1] at noted
    cases noted
  | made before s => cases noted

end

variable (layout : Layout edges home memory) (ranked : Ranked memory items)

include layout ranked

/-- The successor of a listed row is a row of the same store. -/
theorem Ranked.successor (member : item ∈ items) (next : item.successor memory = some s) :
    ∃ domain id e newest, item.entity.map Prod.fst = some id ∧ Holds memory domain id e ∧
      Holds memory domain s newest ∧ (edges.within home domain).successor e = some newest := by
  have key : ∃ id, item.entity.map Prod.fst = some id := by
    unfold Item.successor at next
    split at next
    · cases next
    · obtain ⟨found, -⟩ := Option.filter_eq_some_iff.mp next
      obtain ⟨entity, held, -⟩ := Option.bind_eq_some_iff.mp found
      rw [held]
      exact ⟨entity.1, rfl⟩
  obtain ⟨id, key⟩ := key
  obtain ⟨domain, e, held⟩ := ranked.holds member key
  have last := layout.successor_item (ranked.bare item member) key held
  rw [next] at last
  cases subjects : (edges.within home domain).successor e with
  | none =>
    rw [subjects] at last
    cases last
  | some newest =>
    rw [subjects] at last
    cases last with
    | some there => exact ⟨domain, id, e, newest, key, held, there, subjects⟩

/-- The names of the results are those of their entities. -/
theorem Ranked.name_eq
    (member : item ∈ promoted memory items) : item.name = (item.subject memory).map Prod.fst := by
  have own (row : Item) (among : row ∈ items) : row.name = (row.subject memory).map Prod.fst := by
    unfold Item.name Item.subject
    cases entity : row.entity with
    | none => rfl
    | some entity' =>
      obtain ⟨id, name⟩ := entity'
      obtain ⟨domain, entityType, held⟩ := ranked.stored row among id name entity
      rw [Option.map_some, Option.map_some, Option.map_some, layout.idSubject held]
  obtain ⟨entry, among, rfl⟩ := List.mem_map.mp member
  have sound := sound_pass among
  cases entry with
  | stays row => exact own row sound.1
  | marked row s => exact own row sound.1
  | pulled row s => exact own row sound.1
  | made stale s =>
    obtain ⟨domain, id, e, newest, -, -, held, -⟩ := ranked.successor layout sound.1 sound.2
    change some (((memory.getEntityById s).map Entity.name).getD "") = some (idSubject memory s).1
    rw [layout.getName held, layout.idSubject held]

/-- **A note names a row** that comes before. -/
theorem Ranked.preceded {name : String} (split : promoted memory items = before ++ item :: after)
    (noted : item.supersededBy = some name) : ∃ other ∈ before, other.name = some name := by
  obtain ⟨first, entry, last, entries, rfl, rfl⟩ := split_promoted split
  have among : entry ∈ (promotion memory).pass [] items := by
    rw [entries]
    exact List.mem_append_right _ List.mem_cons_self
  obtain ⟨row, s, rfl⟩ := exists_marked ranked.bare (sound_pass among)
    (Option.isSome_iff_exists.mpr ⟨name, noted⟩)
  obtain ⟨here, next⟩ := sound_pass among
  obtain ⟨domain, id, e, newest, -, -, held, -⟩ := ranked.successor layout here next
  obtain ⟨other, above, key⟩ := listed_of_pass entries
  rw [List.nil_append] at above
  have listed : other ∈ promoted memory items := by
    rw [split]
    exact List.mem_append_left _ above
  refine ⟨other, above, ?_⟩
  have subject : other.subject memory = some newest := by
    obtain ⟨⟨id', name'⟩, entity, rfl⟩ := Option.map_eq_some_iff.mp key
    unfold Item.subject
    rw [entity, Option.map_some, layout.idSubject held]
  have name_ : some (((memory.getEntityById s).map Entity.name).getD "") = some name := noted
  rw [layout.getName held] at name_
  rw [ranked.name_eq layout listed, subject, ← name_]
  rfl

/-! ## Aligned results -/

/-- An id of a listed row, or of the successor of one. -/
def Known (edges : Edges) (memory : DomainMemory) (items : List Item) (k : String) : Prop :=
  ∃ domain found, Holds memory domain k found ∧ (Lists memory items domain k found ∨
    ∃ id e, Lists memory items domain id e ∧ edges.successor e = some found)

section

variable (aligned : Aligned edges home memory items)

include aligned

theorem Aligned.exists_successor (member : item ∈ items) (next : item.successor memory = some s) :
    ∃ domain id e newest, item.entity.map Prod.fst = some id ∧
      Lists memory items domain id e ∧ Holds memory domain s newest ∧
        edges.successor e = some newest := by
  obtain ⟨domain, id, e, -, key, held, -, -⟩ := ranked.successor layout member next
  have last := aligned.successor layout ranked member key held
  rw [next] at last
  cases subjects : edges.successor e with
  | none =>
    rw [subjects] at last
    cases last
  | some newest =>
    rw [subjects] at last
    cases last with
    | some there => exact ⟨domain, id, e, newest, key, ⟨item, member, key, held⟩, there, subjects⟩

omit ranked in
/-- Rows of the successor of a listed row have its id. -/
theorem Aligned.eq_of_known (listed : Lists memory items domain id e)
    (held : Holds memory domain s newest) (next : edges.successor e = some newest) {k : String}
    (known : Known edges memory items k) (same : idSubject memory k = newest) : k = s := by
  obtain ⟨other, found, there, either⟩ := known
  rw [layout.idSubject there] at same
  subst same
  have here : domain = other := by
    rcases either with row | ⟨id', e', row, leads⟩
    · exact aligned.together domain id e other k found found listed row next (.inl rfl)
    · exact aligned.together domain id e other id' e' found listed row next (.inr leads)
  subst here
  exact layout.unique there held

theorem Aligned.separates :
    (promotion memory).Separates (idSubject memory) (Known edges memory items) items where
  key row member k key := by
    obtain ⟨domain, e, held⟩ := ranked.holds member key
    exact ⟨domain, e, held, .inl ⟨row, member, key, held⟩⟩
  successor row member k next := by
    obtain ⟨domain, id, e, newest, -, listed, held, leads⟩ :=
      aligned.exists_successor layout ranked member next
    exact ⟨domain, newest, held, .inr ⟨id, e, listed, leads⟩⟩
  apart row member k next other known same := by
    obtain ⟨domain, id, e, newest, -, listed, held, leads⟩ :=
      aligned.exists_successor layout ranked member next
    rw [layout.idSubject held] at same
    exact aligned.eq_of_known layout listed held leads known same

/-- **The results, as entities,** are those of the pass over the graph. -/
theorem Aligned.outline_promoted : (promoted memory items).map (outline memory) =
      (graphPromotion edges).rows ((graphPromotion edges).pass [] (items.map (outline memory))) := by
  have successors : ∀ row ∈ items, (graphPromotion edges).successor (outline memory row) =
      ((promotion memory).successor row).map (idSubject memory) := by
    intro row member
    change (if row.supersededBy.isSome then none else
      (row.subject memory).bind edges.successor) = (row.successor memory).map (idSubject memory)
    rw [if_neg (by rw [ranked.bare row member]; exact Bool.false_ne_true)]
    cases entity : row.entity with
    | none =>
      unfold Item.subject Item.successor
      rw [entity, ranked.bare row member]
      rfl
    | some entity' =>
      have key : row.entity.map Prod.fst = some entity'.1 := by
        rw [entity]
        rfl
      obtain ⟨domain, e, held⟩ := ranked.holds member key
      have last := aligned.successor layout ranked member key held
      have subject : row.subject memory = some e := by
        unfold Item.subject
        rw [entity, Option.map_some, layout.idSubject held]
      rw [subject, Option.bind_some]
      revert last
      generalize row.successor memory = ids
      generalize edges.successor e = subjects
      intro last
      cases last with
      | none => rfl
      | some there => rw [Option.map_some, layout.idSubject there]
  have whole := @Corresponds.rows_pass Item String _ Subject _ _ (promotion memory)
    (graphPromotion edges) (outline memory) (idSubject memory) (corresponds edges memory)
    (Known edges memory items) [] items (fun _ member => absurd member List.not_mem_nil)
    (aligned.separates layout ranked) successors
  exact whole.symm

omit aligned in
omit layout ranked in
theorem aligned_single {single : DomainMemory} (one : single.stores.length = 1)
    (items : List Item) : Aligned edges (fun _ => 0) single items := by
  have first {domain : Nat} {id : String} {e : Subject} (held : Holds single domain id e) :
      domain = 0 := by
    obtain ⟨store, -, here, -⟩ := held
    have inside := (List.getElem?_eq_some_iff.mp here).1
    omega
  constructor
  · rintro domain id e ⟨-, -, -, held⟩ edge -
    exact .inl (first held).symm
  · rintro domain id e other id' e' s ⟨-, -, -, held⟩ ⟨-, -, -, held'⟩ - -
    rw [first held, first held']

/-- **The names come in the same order** as from a single store. -/
theorem Aligned.layouts {single : DomainMemory}
    {items' : List Item} (layout' : Layout edges (fun _ => 0) single)
    (one : single.stores.length = 1) (ranked' : Ranked single items')
    (same : items'.map (Item.subject single) = items.map (Item.subject memory)) :
    (promoted single items').map Item.name = (promoted memory items).map Item.name := by
  have outlines : items'.map (outline single) = items.map (outline memory) := by
    have flagged (memory : DomainMemory) (items : List Item) (ranked : Ranked memory items) :
        items.map (outline memory) = (items.map (Item.subject memory)).map fun e => (e, false) := by
      rw [List.map_map]
      refine List.map_congr_left fun item member => ?_
      unfold outline
      rw [ranked.bare item member]
      rfl
    rw [flagged single items' ranked', flagged memory items ranked, same]
  have results := ((aligned_single one items').outline_promoted layout' ranked').trans
    ((congrArg (fun rows => (graphPromotion edges).rows ((graphPromotion edges).pass [] rows))
      outlines).trans (aligned.outline_promoted layout ranked).symm)
  have named {memory : DomainMemory} {home : Subject → Nat} {items : List Item}
      (layout : Layout edges home memory) (ranked : Ranked memory items) :
      (promoted memory items).map Item.name =
        ((promoted memory items).map (outline memory)).map fun row => row.1.map Prod.fst := by
    rw [List.map_map]
    exact List.map_congr_left fun item member => ranked.name_eq layout member
  rw [named layout' ranked', named layout ranked, results]

/-! ## The newest successor -/

omit aligned in
omit layout ranked in
theorem key_of_subject (subject : item.subject memory = some e) :
    ∃ id, item.entity.map Prod.fst = some id ∧ idSubject memory id = e := by
  obtain ⟨entity, held, same⟩ := Option.map_eq_some_iff.mp subject
  refine ⟨entity.1, ?_, same⟩
  rw [held]
  rfl

/-- The ids of the results are those of listed rows and of their successors. -/
theorem Aligned.known_promoted
    (member : item ∈ promoted memory items) (key : item.entity.map Prod.fst = some id) :
    Known edges memory items id := by
  have separates := aligned.separates layout ranked
  obtain ⟨entry, among, rfl⟩ := List.mem_map.mp member
  have sound := sound_pass among
  cases entry with
  | stays row => exact separates.key row sound.1 id key
  | marked row s => exact separates.key row sound.1 id key
  | pulled row s => exact separates.key row sound.1 id key
  | made stale s =>
    cases key
    exact separates.successor stale sound.1 s sound.2

omit ranked in
/-- Rows of the successor of a listed row are told by its id. -/
theorem Aligned.isOf_iff (listed : Lists memory items domain id e)
    (held : Holds memory domain s newest) (next : edges.successor e = some newest)
    (known : ∀ k, item.entity.map Prod.fst = some k → Known edges memory items k) :
    decide (item.subject memory = some newest) = (promotion memory).isOf s item := by
  unfold isOf
  rw [decide_eq_decide]
  constructor
  · intro subject
    obtain ⟨k, key, same⟩ := key_of_subject subject
    have here := aligned.eq_of_known layout listed held next (known k key) same
    exact here ▸ key
  · exact fun key => subject_of_key layout key held

end

/-- **In an orderly graph** a note names the newest successor, which comes before, once, and without
a note. -/
theorem Promotable.newest_first (promotable : Promotable edges home memory items)
    (split : promoted memory items = before ++ item :: after)
    (noted : item.supersededBy.isSome) (subject : item.subject memory = some e)
    (orderly : edges.Orderly e) : ∃ s, edges.IsNewest e s ∧ item.supersededBy = some s.1 ∧
      (∃ other ∈ before, other.subject memory = some s) ∧
      (∀ other ∈ promoted memory items, other.subject memory = some s → other.supersededBy = none) ∧
      ((promoted memory items).countP fun other => decide (other.subject memory = some s)) = 1 := by
  have aligned := promotable.toAligned
  obtain ⟨first, entry, last, entries, rfl, rfl⟩ := split_promoted split
  have among : entry ∈ (promotion memory).pass [] items := by
    rw [entries]
    exact List.mem_append_right _ List.mem_cons_self
  obtain ⟨row, s, rfl⟩ := exists_marked ranked.bare (sound_pass among) noted
  obtain ⟨here, next⟩ := sound_pass among
  obtain ⟨domain, id, e', newest, key, listed, held, leads⟩ :=
    aligned.exists_successor layout ranked here next
  have own : row.subject memory = some e' := by
    obtain ⟨-, -, -, there⟩ := listed
    exact subject_of_key layout key there
  have same : e' = e := Option.some.inj (own.symm.trans subject)
  subst same
  have end_ := orderly.isNewest_successor leads
  obtain ⟨other, above, otherKey⟩ := listed_of_pass entries
  rw [List.nil_append] at above
  have count (rows : List Item) (within : ∀ row ∈ rows, ∀ k,
      row.entity.map Prod.fst = some k → Known edges memory items k) :
      (rows.countP fun other => decide (other.subject memory = some newest)) =
        (promotion memory).times s rows :=
    List.countP_congr fun row member => by
      rw [aligned.isOf_iff layout listed held leads (within row member)]
  refine ⟨newest, end_, ?_, ⟨other, above, subject_of_key layout otherKey held⟩, ?_, ?_⟩
  · change some (((memory.getEntityById s).map Entity.name).getD "") = some newest.1
    rw [layout.getName held]
  · intro other member otherSubject
    cases note : other.supersededBy with
    | none => rfl
    | some name =>
      -- the last entity of a chain has no successor, so none of its rows was annotated
      obtain ⟨entry, among, rfl⟩ := List.mem_map.mp member
      obtain ⟨row', s', rfl⟩ := exists_marked ranked.bare (sound_pass among)
        (Option.isSome_iff_exists.mpr ⟨name, note⟩)
      obtain ⟨here', next'⟩ := sound_pass among
      obtain ⟨domain', id', e'', newest', key', listed', held', leads'⟩ :=
        aligned.exists_successor layout ranked here' next'
      have own' : row'.subject memory = some e'' := by
        obtain ⟨-, -, -, there⟩ := listed'
        exact subject_of_key layout key' there
      have same : e'' = newest := Option.some.inj (own'.symm.trans otherSubject)
      rw [same, Edges.successor_of_last end_.2] at leads'
      cases leads'
  · have present : 0 < (promotion memory).times s (promoted memory items) := by
      refine times_pos.mpr ⟨other, ?_, otherKey⟩
      rw [split]
      exact List.mem_append_left _ above
    have few := promotable.once domain id e' newest listed orderly leads
    rw [count items (aligned.separates layout ranked).key] at few
    rw [count (promoted memory items) fun row member k key =>
      aligned.known_promoted layout ranked member key]
    rcases @times_pass Item String _ (promotion memory) s [] items with same | ⟨-, once⟩
    · have same' : (promotion memory).times s (promoted memory items) =
          (promotion memory).times s items := same
      omega
    · exact once

/-- **Aligned results** have successors first. -/
theorem Promotable.successorsFirst (promotable : Promotable edges home memory items) :
    SuccessorsFirst edges memory items (promoted memory items) (promotions memory items) where
  kept := promoted_kept ranked.bare
  preceded _ _ _ _ split noted := ranked.preceded layout split noted
  newest _ _ _ _ split noted subject orderly :=
    promotable.newest_first layout ranked split noted subject orderly
  layouts single items' out' _ layout' one ranked' same run := by
    rw [promoteSuccessors_eq] at run
    obtain ⟨rfl, -⟩ := Prod.mk.inj (Option.some.inj run)
    exact promotable.toAligned.layouts layout ranked layout' one ranked' same

end Results

/-! ## Only aligned results -/

section Necessity

open Supersession Promotion

variable {edges : Edges} {home : Subject → Nat} {memory : DomainMemory} {items : List Item}
  {domain other hops : Nat} {id id' s : String} {e e' newer newest : Subject}

/-- An entity is told by its name. -/
def NamesDistinct (edges : Edges) : Prop :=
  ∀ first second older older', (first, older) ∈ edges → (second, older') ∈ edges →
    first.1 = second.1 → first = second

theorem within_subset : edges.within home domain ⊆ edges := List.filter_subset_self _

theorem Supersession.Edges.Leads.mono {more : Edges} (leads : edges.Leads hops e newest)
    (subset : edges ⊆ more) : more.Leads hops e newest := by
  induction leads with
  | refl e => exact .refl e
  | step edge _ ih => exact .step (subset edge) ih

theorem Supersession.Edges.Leads.exists_last (leads : edges.Leads (hops + 1) e newest) :
    ∃ older, (newest, older) ∈ edges := by
  generalize length : hops + 1 = count at leads
  induction leads generalizing hops with
  | refl e => cases length
  | @step between e newer newest edge leads ih =>
    cases between with
    | zero =>
      cases leads
      exact ⟨e, edge⟩
    | succ between => exact ih rfl

/-- A successor is more than no edge away. -/
theorem leads_of_successor (next : edges.successor e = some newest) :
    ∃ hops, edges.Leads (hops + 1) e newest := by
  unfold Edges.successor at next
  dsimp only at next
  split at next
  · cases next
  · rename_i apart
    cases next
    obtain ⟨length, leads⟩ := @Edges.leads_walk edges supersessionChainCap e [e]
    revert leads
    generalize walk edges.next supersessionChainCap e [e] = newest at apart ⊢
    intro leads
    cases length with
    | zero =>
      cases leads
      exact absurd rfl apart
    | succ length => exact ⟨length, leads⟩

theorem exists_successor_of_next (acyclic : edges.Acyclic) (next : edges.next e = some newer) :
    ∃ newest, edges.successor e = some newest := by
  have apart : newer ∉ [e] := by
    intro same
    rw [List.mem_singleton.mp same] at next
    exact acyclic 0 e (.single (Edges.mem_of_next next))
  unfold Edges.successor supersessionChainCap walk
  rw [next]
  dsimp only
  rw [if_neg apart]
  obtain ⟨length, leads⟩ := @Edges.leads_walk edges 7 newer ([e] ++ [newer])
  refine ⟨_, if_neg fun same => ?_⟩
  rw [same] at leads
  exact acyclic length e (.step (Edges.mem_of_next next) leads)

/-- **Where a chain is followed to the same end,** its edges touch the domain. -/
theorem touches_of_walk_eq (acyclic : edges.Acyclic) (one : edges.AtMostOne)
    (behind : ∀ v ∈ visited, ∃ between, edges.Leads between v e)
    (same : walk (edges.within home domain).next hops e visited = walk edges.next hops e visited) :
    ∀ edge ∈ edges.followed hops e visited, Edges.Touches home domain edge := by
  induction hops generalizing e visited with
  | zero => exact fun _ member => absurd member List.not_mem_nil
  | succ hops ih =>
    unfold Edges.followed
    unfold walk at same
    cases next : edges.next e with
    | none => exact fun _ member => absurd member List.not_mem_nil
    | some newer =>
      have edge := Edges.mem_of_next next
      have fresh : newer ∉ visited := by
        intro known
        obtain ⟨between, path⟩ := behind newer known
        exact acyclic between newer (path.append (.single edge))
      have touches : Edges.Touches home domain (newer, e) := by
        by_contra off
        have stuck : (edges.within home domain).next e = none := by
          rw [Edges.next_eq_none]
          intro other member
          obtain ⟨among, touches⟩ := List.mem_filter.mp member
          rw [one other newer e among edge] at touches
          exact off (of_decide_eq_true touches)
        rw [stuck, next] at same
        dsimp only at same
        rw [if_neg fresh] at same
        obtain ⟨length, leads⟩ := @Edges.leads_walk edges hops newer (visited ++ [newer])
        rw [← same] at leads
        exact acyclic length e (.step edge leads)
      rw [Edges.next_within next touches, next] at same
      dsimp only at same ⊢
      rw [if_neg fresh, if_neg fresh] at same
      rw [if_neg fresh]
      intro other member
      rcases List.mem_cons.mp member with rfl | later
      · exact touches
      · refine ih (fun v among => ?_) same other later
        rcases List.mem_append.mp among with old | new
        · obtain ⟨between, path⟩ := behind v old
          exact ⟨between + 1, path.append (.single edge)⟩
        · rw [List.mem_singleton.mp new]
          exact ⟨0, .refl newer⟩

theorem marked_of_pulled {above rest : List Item} {row : Item}
    (member : Entry.pulled row s ∈ (promotion memory).pass above rest) :
    ∃ stale, Entry.marked stale s ∈ (promotion memory).pass above rest := by
  fun_induction Promotion.pass (promotion memory) above rest with
  | case1 above => cases member
  | case2 above row rest none_ ih =>
    rcases List.mem_cons.mp member with here | later
    · cases here
    · obtain ⟨stale, among⟩ := ih later
      exact ⟨stale, List.mem_cons_of_mem _ among⟩
  | case3 above row rest next succ ranked ih =>
    rcases List.mem_cons.mp member with here | later
    · cases here
    · obtain ⟨stale, among⟩ := ih later
      exact ⟨stale, List.mem_cons_of_mem _ among⟩
  | case4 above row rest next succ unranked found first ih =>
    rcases List.mem_cons.mp member with here | later
    · cases here
      exact ⟨row, List.mem_cons_of_mem _ List.mem_cons_self⟩
    · rcases List.mem_cons.mp later with here | later
      · cases here
      · obtain ⟨stale, among⟩ := ih later
        exact ⟨stale, List.mem_cons_of_mem _ (List.mem_cons_of_mem _ among)⟩
  | case5 above row rest next succ unranked none_ ih =>
    rcases List.mem_cons.mp member with here | later
    · cases here
    · rcases List.mem_cons.mp later with here | later
      · cases here
      · obtain ⟨stale, among⟩ := ih later
        exact ⟨stale, List.mem_cons_of_mem _ (List.mem_cons_of_mem _ among)⟩

/-- A row stays among the results, under its key. -/
theorem exists_entry {item : Item} (member : item ∈ items) :
    ∃ entry ∈ (promotion memory).pass [] items, entry.input = some item := by
  have among := (@input_pass Item String _ (promotion memory) [] items).symm.subset member
  exact List.mem_filterMap.mp among

theorem key_of_input {entry : Promotion.Entry Item String} (input : entry.input = some item) :
    (entry.row (promotion memory)).entity = item.entity := by
  cases entry with
  | stays row => cases input; rfl
  | marked row s => cases input; rfl
  | pulled row s => cases input; rfl
  | made before s => cases input

theorem countP_le_promoted (q : Option Subject → Bool) :
    (items.countP fun item => q (item.subject memory)) ≤
      (promoted memory items).countP fun item => q (item.subject memory) := by
  have order := @input_pass Item String _ (promotion memory) [] items
  rw [← order.countP_eq]
  unfold promoted
  generalize (promotion memory).pass [] items = entries
  induction entries with
  | nil => exact le_rfl
  | cons first rest ih =>
    have row : (promotion memory).rows (first :: rest) =
        first.row (promotion memory) :: (promotion memory).rows rest := rfl
    rw [row, List.countP_cons]
    cases input : first.input with
    | none =>
      rw [List.filterMap_cons_none input]
      omega
    | some item =>
      have subject : (first.row (promotion memory)).subject memory = item.subject memory := by
        unfold Item.subject
        rw [key_of_input input]
      rw [List.filterMap_cons_some input, List.countP_cons, subject]
      omega

theorem eq_of_countP_eq_one {α : Type} {q : α → Bool} {rows : List α} (once : rows.countP q = 1)
    {first second : α} (left : first ∈ rows) (right : second ∈ rows) (is : q first = true)
    (is' : q second = true) : first = second := by
  rw [List.countP_eq_length_filter, List.length_eq_one_iff] at once
  obtain ⟨only, same⟩ := once
  have one := List.mem_filter.mpr ⟨left, is⟩
  have two := List.mem_filter.mpr ⟨right, is'⟩
  rw [same] at one two
  rw [List.mem_singleton.mp one, List.mem_singleton.mp two]

/-! ## Exactly the aligned results -/

/-- The listed rows are those that entities have in their own domains, and their chains are
orderly, of entities that are told by their names. -/
structure Own (edges : Edges) (home : Subject → Nat) (memory : DomainMemory) (items : List Item) :
    Prop where
  home : ∀ domain id e, Lists memory items domain id e → home e = domain
  orderly : ∀ domain id e, Lists memory items domain id e → edges.Orderly e
  names : NamesDistinct edges

variable (own : Own edges home memory items) (layout : Layout edges home memory)
  (ranked : Ranked memory items)
  (first : SuccessorsFirst edges memory items (promoted memory items) (promotions memory items))

include own layout ranked first

/-- **A row with a note** leads to the newest successor, in its store too. -/
theorem Own.of_marked
    {row : Item} (marked : Entry.marked row s ∈ (promotion memory).pass [] items) :
    ∃ domain id e newest, row.entity.map Prod.fst = some id ∧ Lists memory items domain id e ∧
      Holds memory domain s newest ∧ edges.IsNewest e newest ∧
      (edges.within home domain).successor e = some newest ∧
      (promotion memory).Listed s (promoted memory items) ∧
      ((promoted memory items).countP fun item => decide (item.subject memory = some newest)) =
        1 := by
  obtain ⟨here, next⟩ := sound_pass marked
  obtain ⟨domain, id, e, found, key, held, there, leads⟩ := ranked.successor layout here next
  have listed : Lists memory items domain id e := ⟨row, here, key, held⟩
  obtain ⟨before, after, split⟩ := List.append_of_mem marked
  have results : promoted memory items = (promotion memory).rows before ++
      (promotion memory).annotate row s :: (promotion memory).rows after := by
    unfold promoted
    rw [split]
    exact List.map_append
  obtain ⟨above, listedAbove, aboveKey⟩ := listed_of_pass split
  rw [List.nil_append] at listedAbove
  obtain ⟨newest, end_, name, -, -, once⟩ := first.newest _ _ _ e results rfl
    (subject_of_key layout key held) (own.orderly domain id e listed)
  have name_ : some (((memory.getEntityById s).map Entity.name).getD "") = some newest.1 := name
  rw [layout.getName there, Option.some_inj] at name_
  -- the successor in the store and that in the graph end edges, and have one name
  obtain ⟨hops, path⟩ := leads_of_successor leads
  obtain ⟨older, edge⟩ := (path.mono within_subset).exists_last
  obtain ⟨⟨length, whole⟩, last⟩ := end_
  have some_ : ∃ between, length = between + 1 := by
    cases length with
    | succ between => exact ⟨between, rfl⟩
    | zero =>
      cases whole
      cases path.mono within_subset with
      | step edge _ => exact absurd edge (last _)
  obtain ⟨between, rfl⟩ := some_
  obtain ⟨older', edge'⟩ := whole.exists_last
  have same : found = newest := own.names found newest older older' edge edge' name_
  subst same
  refine ⟨domain, id, e, found, key, listed, there, ⟨⟨_, whole⟩, last⟩, leads, ?_, once⟩
  refine ⟨above, ?_, aboveKey⟩
  rw [results]
  exact List.mem_append_left _ listedAbove

/-- A listed row that has a successor gets a note. -/
theorem Own.exists_marked (member : item ∈ items) (key : item.entity.map Prod.fst = some id)
    (held : Holds memory domain id e) {newer : Subject} (next : edges.next e = some newer) :
    ∃ s, Entry.marked item s ∈ (promotion memory).pass [] items := by
  have listed : Lists memory items domain id e := ⟨item, member, key, held⟩
  have orderly := own.orderly domain id e listed
  have near := @Edges.next_within edges home domain e newer next
    (.inr (own.home domain id e listed))
  have acyclic : (edges.within home domain).Acyclic := fun hops e path =>
    orderly.acyclic hops e (path.mono within_subset)
  obtain ⟨found, leads⟩ := exists_successor_of_next acyclic near
  have last := layout.successor_item (ranked.bare item member) key held
  rw [leads] at last
  obtain ⟨entry, among, input⟩ := @exists_entry memory items item member
  cases entry with
  | stays row =>
    cases input
    have none_ : item.successor memory = none := (sound_pass among).2
    rw [none_] at last
    cases last
  | marked row s =>
    cases input
    exact ⟨s, among⟩
  | pulled row s =>
    cases input
    -- a row that was pulled up is the newest of its chain
    obtain ⟨-, rowKey, -⟩ := sound_pass among
    obtain ⟨stale, marked⟩ := marked_of_pulled among
    obtain ⟨other, staleId, older, newest, -, -, there, end_, -, -, -⟩ :=
      own.of_marked layout ranked first marked
    have same : id = s := Option.some.inj (key.symm.trans rowKey)
    subst same
    rw [layout.alone there held] at there
    rw [there.functional held] at end_
    exact absurd (Edges.mem_of_next next) (end_.2 newer)
  | made before s => cases input

/-- A listed row that has a successor is seen to the end of its chain. -/
theorem Own.lists (listed : Lists memory items domain id e) {newer : Subject}
    (next : edges.next e = some newer) :
    ∃ s newest, Holds memory domain s newest ∧ edges.IsNewest e newest ∧
      (edges.within home domain).successor e = some newest ∧
      (promotion memory).Listed s (promoted memory items) ∧
      ((promoted memory items).countP fun item => decide (item.subject memory = some newest)) =
        1 := by
  obtain ⟨item, member, key, held⟩ := listed
  obtain ⟨s, marked⟩ := own.exists_marked layout ranked first member key held next
  obtain ⟨other, id', e', newest, key', listed', there, end_, leads, above, once⟩ :=
    own.of_marked layout ranked first marked
  have same : id = id' := Option.some.inj (key.symm.trans key')
  subst same
  obtain ⟨-, -, -, held'⟩ := listed'
  have here := layout.alone held held'
  subst here
  have subjects := held.functional held'
  subst subjects
  exact ⟨s, newest, there, end_, leads, above, once⟩

omit own layout ranked first in
theorem next_of_successor (next : edges.successor e = some newest) :
    ∃ newer, edges.next e = some newer := by
  cases held : edges.next e with
  | some newer => exact ⟨newer, rfl⟩
  | none =>
    rw [Edges.successor_of_last (Edges.next_eq_none.mp held)] at next
    cases next

theorem Own.promotable : Promotable edges home memory items where
  touches domain id e listed := by
    have orderly := own.orderly domain id e listed
    cases next : edges.next e with
    | none =>
      unfold supersessionChainCap Edges.followed
      rw [next]
      exact fun _ member => absurd member List.not_mem_nil
    | some newer =>
      obtain ⟨s, newest, -, end_, leads, -, -⟩ := own.lists layout ranked first listed next
      refine touches_of_walk_eq orderly.acyclic orderly.atMostOne (fun v member => ?_) ?_
      · rw [List.mem_singleton.mp member]
        exact ⟨0, .refl e⟩
      · rw [orderly.walk_eq end_]
        unfold Edges.successor at leads
        dsimp only at leads
        split at leads
        · cases leads
        · exact Option.some.inj leads
  together domain id e other id' e' s listed listed' next either := by
    obtain ⟨newer, near⟩ := next_of_successor next
    obtain ⟨k, newest, held, end_, -, ⟨row, among, rowKey⟩, once⟩ :=
      own.lists layout ranked first listed near
    have orderly := own.orderly domain id e listed
    have same : newest = s := by
      rw [← orderly.walk_eq end_, orderly.walk_eq (orderly.isNewest_successor next)]
    subst same
    have rowSubject := subject_of_key layout rowKey held
    -- of two rows of the newest successor one would be too many
    have only {k' : String} (there : Holds memory other k' newest) {row' : Item}
        (among' : row' ∈ promoted memory items) (key' : row'.entity.map Prod.fst = some k') :
        domain = other := by
      have rows := eq_of_countP_eq_one once among among' (decide_eq_true rowSubject)
        (decide_eq_true (subject_of_key layout key' there))
      subst rows
      have ids : k = k' := Option.some.inj (rowKey.symm.trans key')
      subst ids
      exact layout.alone held there
    rcases either with rfl | next'
    · obtain ⟨item, member, key, there⟩ := listed'
      obtain ⟨entry, found, input⟩ := @exists_entry memory items item member
      refine only there (List.mem_map_of_mem found) ?_
      rw [key_of_input input]
      exact key
    · obtain ⟨newer', near'⟩ := next_of_successor next'
      obtain ⟨k', newest', held', end', -, ⟨row', among', rowKey'⟩, -⟩ :=
        own.lists layout ranked first listed' near'
      have orderly' := own.orderly other id' e' listed'
      have same : newest' = newest := by
        rw [← orderly'.walk_eq end', orderly'.walk_eq (orderly'.isNewest_successor next')]
      subst same
      exact only held' among' rowKey'
  once domain id e s listed orderly next := by
    obtain ⟨newer, near⟩ := next_of_successor next
    obtain ⟨k, newest, -, end_, -, -, once⟩ := own.lists layout ranked first listed near
    have same : newest = s := by
      rw [← orderly.walk_eq end_, orderly.walk_eq (orderly.isNewest_successor next)]
    subst same
    exact (countP_le_promoted fun subject => decide (subject = some newest)).trans once.le

omit own first in
/-- **Successors come first** where the listed chains are seen in their domains, their rows and
those of their ends are of one domain, and the ends have one row at most; and for listed rows of
their own domains with orderly chains in no other case. The loop always ends. -/
theorem successorsFirst_iff : ∃ out promotions,
      (∀ rounds, items.length ≤ rounds →
        promoteFrom memory rounds 0 items 0 = some (out, promotions)) ∧
      (Promotable edges home memory items → SuccessorsFirst edges memory items out promotions) ∧
      (Own edges home memory items → SuccessorsFirst edges memory items out promotions →
        Promotable edges home memory items) :=
  ⟨promoted memory items, promotions memory items,
    fun _ enough => promoteFrom_start memory items enough,
    fun promotable => promotable.successorsFirst layout ranked,
    fun own first => own.promotable layout ranked first⟩

end Necessity

/-! ## Two domains -/

namespace Successors

open Supersession

def alpha : Subject := ("alpha", .concept)

def beta : Subject := ("beta", .concept)

def gamma : Subject := ("gamma", .concept)

def delta : Subject := ("delta", .concept)

/-- The entity beta supersedes alpha across two domains, and delta supersedes gamma within one. -/
def edges : Edges := [(beta, alpha), (delta, gamma)]

def home (e : Subject) : Nat := if e = beta then 1 else 0

def stored (e : Subject) : StoredEntity := ⟨e.1, e.2, 0, 0, ⟨0⟩, "test"⟩

def supersedes (newer older : String) : StoredRelation :=
  ⟨newer, older, "supersedes", ⟨0⟩, 0, none, none, "test"⟩

def firstStore : Database :=
  { Database.initial with
    entities := ⟨[("a0", stored alpha), ("b0", stored beta), ("c0", stored gamma),
      ("d0", stored delta)], by decide⟩
    relations := ⟨[("r0", supersedes "b0" "a0"), ("s0", supersedes "d0" "c0")], by decide⟩ }

def secondStore : Database :=
  { Database.initial with
    entities := ⟨[("a1", stored alpha), ("b1", stored beta)], by decide⟩
    relations := ⟨[("r1", supersedes "b1" "a1")], by decide⟩ }

def memory : DomainMemory := ⟨[firstStore, secondStore], 1⟩

def holdings : List (Nat × String × Subject) :=
  [(0, "a0", alpha), (0, "b0", beta), (0, "c0", gamma), (0, "d0", delta), (1, "a1", alpha),
    (1, "b1", beta)]

theorem mem_holdings {domain : Nat} {id : String} {e : Subject}
    (held : Holds memory domain id e) : (domain, id, e) ∈ holdings := by
  obtain ⟨store, entity, here, row, rfl⟩ := held
  unfold Database.getEntityById at row
  obtain ⟨entry, found, rfl⟩ := Option.map_eq_some_iff.mp row
  have among := Table.get?_eq_some_iff.mp found
  match domain, here with
  | 0, here =>
    cases here
    simp only [firstStore, List.mem_cons, Prod.mk.injEq, List.not_mem_nil, or_false] at among
    rcases among with ⟨rfl, rfl⟩ | ⟨rfl, rfl⟩ | ⟨rfl, rfl⟩ | ⟨rfl, rfl⟩ <;> decide
  | 1, here =>
    cases here
    simp only [secondStore, List.mem_cons, Prod.mk.injEq, List.not_mem_nil, or_false] at among
    rcases among with ⟨rfl, rfl⟩ | ⟨rfl, rfl⟩ <;> decide
  | domain + 2, here => cases here

theorem layout : Layout edges home memory where
  alone held held' := by
    have all : ∀ p ∈ holdings, ∀ q ∈ holdings, p.2.1 = q.2.1 → p.1 = q.1 := by decide
    exact all _ (mem_holdings held) _ (mem_holdings held') rfl
  unique held held' := by
    have all : ∀ p ∈ holdings, ∀ q ∈ holdings, p.1 = q.1 → p.2.2 = q.2.2 → p.2.1 = q.2.1 := by
      decide
    exact all _ (mem_holdings held) _ (mem_holdings held') rfl rfl
  incoming {domain store id e} here held := by
    have among := mem_holdings held
    simp only [holdings, List.mem_cons, Prod.mk.injEq, List.not_mem_nil, or_false] at among
    rcases among with ⟨rfl, rfl, rfl⟩ | ⟨rfl, rfl, rfl⟩ | ⟨rfl, rfl, rfl⟩ | ⟨rfl, rfl, rfl⟩ |
      ⟨rfl, rfl, rfl⟩ | ⟨rfl, rfl, rfl⟩
    · cases here
      have rows : incoming memory.now firstStore "a0" = [supersedes "b0" "a0"] := by
        decide +kernel
      rw [rows]
      exact .cons ⟨firstStore, _, rfl, rfl, rfl⟩ .nil
    · cases here
      have rows : incoming memory.now firstStore "b0" = [] := by decide +kernel
      rw [rows]
      exact .nil
    · cases here
      have rows : incoming memory.now firstStore "c0" = [supersedes "d0" "c0"] := by
        decide +kernel
      rw [rows]
      exact .cons ⟨firstStore, _, rfl, rfl, rfl⟩ .nil
    · cases here
      have rows : incoming memory.now firstStore "d0" = [] := by decide +kernel
      rw [rows]
      exact .nil
    · cases here
      have rows : incoming memory.now secondStore "a1" = [supersedes "b1" "a1"] := by
        decide +kernel
      rw [rows]
      exact .cons ⟨secondStore, _, rfl, rfl, rfl⟩ .nil
    · cases here
      have rows : incoming memory.now secondStore "b1" = [] := by decide +kernel
      rw [rows]
      exact .nil

def result (id : String) (e : Subject) : Item :=
  ⟨some (id, e.1), some e.2, none, "", none, .gloss, none, none⟩

/-- The results gamma and delta, of one domain. -/
def near : List Item := [result "c0" gamma, result "d0" delta]

/-- The results alpha and beta, of two. -/
def far : List Item := [result "a0" alpha, result "b1" beta]

theorem ranked_near : Ranked memory near where
  bare := by decide
  stored item member id name entity := by
    simp only [near, List.mem_cons, List.not_mem_nil, or_false] at member
    rcases member with rfl | rfl
    · cases entity
      exact ⟨0, .concept, firstStore, _, rfl, rfl, rfl⟩
    · cases entity
      exact ⟨0, .concept, firstStore, _, rfl, rfl, rfl⟩

theorem ranked_far : Ranked memory far where
  bare := by decide
  stored item member id name entity := by
    simp only [far, List.mem_cons, List.not_mem_nil, or_false] at member
    rcases member with rfl | rfl
    · cases entity
      exact ⟨0, .concept, firstStore, _, rfl, rfl, rfl⟩
    · cases entity
      exact ⟨1, .concept, secondStore, _, rfl, rfl, rfl⟩

theorem lists_near {domain : Nat} {id : String} {e : Subject}
    (listed : Lists memory near domain id e) : domain = 0 ∧ (e = gamma ∨ e = delta) := by
  obtain ⟨item, member, key, held⟩ := listed
  have among := mem_holdings held
  simp only [near, List.mem_cons, List.not_mem_nil, or_false] at member
  rcases member with rfl | rfl
  · cases key
    have all : ∀ p ∈ holdings, p.2.1 = "c0" → p.1 = 0 ∧ (p.2.2 = gamma ∨ p.2.2 = delta) := by
      decide
    exact all _ among rfl
  · cases key
    have all : ∀ p ∈ holdings, p.2.1 = "d0" → p.1 = 0 ∧ (p.2.2 = gamma ∨ p.2.2 = delta) := by
      decide
    exact all _ among rfl

theorem promotable_near : Promotable edges home memory near where
  touches domain id e listed := by
    obtain ⟨rfl, rfl | rfl⟩ := lists_near listed
    · decide
    · decide
  together domain id e other id' e' s listed listed' _ _ := by
    rw [(lists_near listed).1, (lists_near listed').1]
  once domain id e s listed _ next := by
    obtain ⟨rfl, rfl | rfl⟩ := lists_near listed
    · have newest : edges.successor gamma = some delta := by decide
      cases newest.symm.trans next
      decide
    · have last : edges.successor delta = none := by decide
      cases last.symm.trans next

end Successors

open Successors in
theorem near_promoted : ∃ out promotions, promoteFrom memory 2 0 near 0 = some (out, promotions) ∧
    SuccessorsFirst edges memory near out promotions := by
  obtain ⟨out, promotions, ends, first, -⟩ := successorsFirst_iff layout ranked_near
  exact ⟨out, promotions, ends 2 le_rfl, first promotable_near⟩

namespace Successors

open Supersession

/-- How far up its chain an entity stands. -/
def rank (e : Subject) : Nat := if e = beta ∨ e = delta then 1 else 0

theorem rank_of_leads {hops : Nat} {e newest : Subject} (leads : edges.Leads hops e newest) :
    rank newest = rank e + hops := by
  induction leads with
  | refl e => rfl
  | @step hops e newer newest edge leads ih =>
    have up : ∀ edge ∈ edges, rank edge.1 = rank edge.2 + 1 := by decide
    have one := up _ edge
    dsimp only at one
    omega

theorem orderly (e : Subject) : edges.Orderly e where
  acyclic hops e cycle := by
    have same := rank_of_leads cycle
    omega
  atMostOne first second e edge edge' := by
    have all : ∀ p ∈ edges, ∀ q ∈ edges, p.2 = q.2 → p.1 = q.1 := by decide
    exact all _ edge _ edge' rfl
  short hops newest leads := by
    have same := rank_of_leads leads
    have low : rank newest ≤ 1 := by
      unfold rank
      split
      · exact le_rfl
      · exact Nat.zero_le _
    unfold supersessionChainCap
    omega

theorem lists_alpha : Lists memory far 0 "a0" alpha :=
  ⟨_, List.mem_cons_self, rfl, firstStore, _, rfl, rfl, rfl⟩

theorem lists_beta : Lists memory far 1 "b1" beta :=
  ⟨_, List.mem_cons_of_mem _ List.mem_cons_self, rfl, secondStore, _, rfl, rfl, rfl⟩

theorem own_far : Own edges home memory far where
  home domain id e listed := by
    obtain ⟨item, member, key, held⟩ := listed
    have among := mem_holdings held
    simp only [far, List.mem_cons, List.not_mem_nil, or_false] at member
    rcases member with rfl | rfl
    · cases key
      have all : ∀ p ∈ holdings, p.2.1 = "a0" → home p.2.2 = p.1 := by decide
      exact all _ among rfl
    · cases key
      have all : ∀ p ∈ holdings, p.2.1 = "b1" → home p.2.2 = p.1 := by decide
      exact all _ among rfl
  orderly _ _ e _ := orderly e
  names first second older older' edge edge' := by
    have all : ∀ p ∈ edges, ∀ q ∈ edges, p.1.1 = q.1.1 → p.1 = q.1 := by decide
    exact all _ edge _ edge'

end Successors

open Successors in
/-- A successor of another domain is listed next to the row that is kept of it. -/
theorem far_not_promoted : ∃ out promotions,
    promoteSuccessors memory far = some (out, promotions) ∧
      ¬ SuccessorsFirst edges memory far out promotions := by
  refine ⟨_, _, promoteSuccessors_eq memory far, fun first => ?_⟩
  have promotable := own_far.promotable layout ranked_far first
  have newest : edges.successor alpha = some beta := by decide
  exact absurd (promotable.together _ _ _ _ _ _ _ lists_alpha lists_beta newest (.inl rfl))
    (by decide)

end OpenMemory.Mcp
