import OpenMemory.Graph.Guarantees.Eligible

/-!
# Spreading activation, visit by visit

A spreading is a sequence of visits. A visit is a neighbour with the score that its
relation gives it, and the rows of the neighbour are read up to a limit, which is what
is still wanted. The first visit of a neighbour takes all the rows read that count, and
later visits add nothing.

The rows that are eligible do not depend on the order of the visits. Where no visit is
hindered, what is found is the beginning of what the first visits would find without
any limit.
-/

namespace OpenMemory.Graph

open Foundation

/-- What a spreading is asked for. -/
structure Spread (S : Type) where
  host : RecallHost S
  content : RecallContent
  filters : RecallFilters
  names : Option (List String)
  validAt : Int64
  seeds : List (RecallResult S)
  maxExtra : Nat

structure RecallContent.Keyed (content : RecallContent) : Prop where
  observations : (content.observations.map RecallRow.id).Nodup
  entities : (content.entities.map EntityRow.id).Nodup

/-- A neighbour and the score that its observations are to begin with. -/
abbrev Visit (S : Type) := String × S

namespace Spread

variable {S : Type} [Preorder S] [DecidableLT S] [CaseMapping]

section Definitions

variable (spread : Spread S)

/-- What is found when the seed entities come out of their hash map in an order. -/
def run (order : List (String × S)) : List (RecallResult S) :=
  spreadActivation { spread.host with visit := fun _ => order } spread.content spread.filters
    spread.names spread.validAt spread.seeds spread.maxExtra

def seedIds : List String := spread.seeds.map fun seed => seed.observation.id

/-- The visits that come from one seed entity. -/
def visitsOf (seed : String × S) : List (Visit S) :=
  ((neighbours spread.content seed.1 spread.validAt).filter fun neighbour =>
      decide (neighbour.1 ∉ (seedEntities spread.seeds).map Prod.fst)).map fun neighbour =>
    (neighbour.1, spread.host.spreadScore neighbour.2 seed.2)

def visits (order : List (String × S)) : List (Visit S) := order.flatMap spread.visitsOf

/-- The query for the observations of an entity, without a limit. -/
def isLive (entity : String) (row : JoinedRow) : Bool :=
  row.row.entityId = entity && row.row.tombstoned = 0 &&
    row.row.validUntil.all (fun until_ => decide (spread.validAt < until_)) &&
    spread.filters.memoryTier.all fun tier => row.row.memoryTier = tier.asStr

def rowsOf (entity : String) : List JoinedRow :=
  (spread.content.joined.filter (spread.isLive entity)).insertionSort
    fun a b => b.row.observedAt ≤ a.row.observedAt

def passes (row : JoinedRow) : Bool := passesSpread spread.filters spread.names spread.validAt row

/-- The row passes the filters and the minimum score, and is not a seed. -/
def counts (base : S) (row : JoinedRow) : Bool :=
  spread.passes row && decide (row.row.id ∉ spread.seedIds) &&
    !decide (spread.host.computeScore row.observation base spread.validAt <
      spread.host.spreadMinScore)

/-- The result that a row becomes. -/
def extra (base : S) (row : JoinedRow) : RecallResult S where
  observation := row.observation
  entityName := row.entity.name
  entityType := row.entityType
  rawScore := base
  score := spread.host.computeScore row.observation base spread.validAt

/-- How many rows are read when so many results are there. -/
def limit (found : Nat) : Nat := max (min (spread.maxExtra - found) (2 ^ 63 - 1)) 1

/-- A live row of a neighbour counts, by some relation. -/
def eligible (row : JoinedRow) : Bool :=
  (spread.visits (seedEntities spread.seeds)).any fun visit =>
    spread.isLive visit.1 row && spread.counts visit.2 row

def eligibleAt (entity : String) : List JoinedRow := (spread.rowsOf entity).filter spread.eligible

omit [Preorder S] [DecidableLT S] [CaseMapping] in
/-- The first visits of neighbours that are not done yet. -/
def freshVisits : List String → List (Visit S) → List (Visit S)
  | _, [] => []
  | done, visit :: rest =>
    if visit.1 ∈ done then freshVisits done rest
    else visit :: freshVisits (visit.1 :: done) rest

/-- How many eligible rows there are on the neighbours visited. -/
def eligibleBefore (before : List (Visit S)) : Nat :=
  ((freshVisits [] before).flatMap fun visit => spread.eligibleAt visit.1).length

/-- What the first visits find without any limit. -/
def expected (before : List (Visit S)) : List (RecallResult S) :=
  (freshVisits [] before).flatMap fun visit =>
    ((spread.rowsOf visit.1).filter (spread.counts visit.2)).map (spread.extra visit.2)

/-- The rows that a first visit takes when so many results are there. -/
def picked (found : Nat) (visit : Visit S) : List JoinedRow :=
  ((spread.rowsOf visit.1).take (spread.limit found)).filter (spread.counts visit.2)

/-- While there are fewer eligible rows on the neighbours before than are wanted, a first
visit takes every eligible row of its neighbour, or enough of them. -/
def Unhindered : List (Visit S) → List (Visit S) → Prop
  | _, [] => True
  | before, visit :: rest =>
    (visit.1 ∉ before.map Prod.fst → spread.eligibleBefore before < spread.maxExtra →
      (∀ row ∈ spread.eligibleAt visit.1,
          row ∈ spread.picked (spread.eligibleBefore before) visit) ∨
        spread.maxExtra ≤ spread.eligibleBefore before +
          (spread.picked (spread.eligibleBefore before) visit).length) ∧
    Unhindered (before ++ [visit]) rest

def rowStep (base : S) (state : Spreading S) (row : JoinedRow) :
    Except (List (RecallResult S)) (Spreading S) :=
  if !spread.passes row then .ok state
  else if row.row.id ∈ state.seen then .ok state
  else if spread.host.computeScore row.observation base spread.validAt <
      spread.host.spreadMinScore then .ok { state with seen := row.row.id :: state.seen }
  else
    let found := state.found ++ [spread.extra base row]
    if spread.maxExtra ≤ found.length then .error found else .ok ⟨row.row.id :: state.seen, found⟩

def visitStep (state : Spreading S) (visit : Visit S) :
    Except (List (RecallResult S)) (Spreading S) :=
  ((spread.rowsOf visit.1).take (spread.limit state.found.length)).foldlM
    (spread.rowStep visit.2) state

omit [Preorder S] [DecidableLT S] [CaseMapping] in
/-- The results, whether the loop ended or returned early. -/
def outcome : Except (List (RecallResult S)) (Spreading S) → List (RecallResult S)
  | .ok state => state.found
  | .error found => found

def start : Spreading S := ⟨spread.seedIds, []⟩

end Definitions

variable {spread : Spread S} {state : Spreading S} {order : List (String × S)}

/-! ## The source as a sequence of visits -/

omit [Preorder S] [DecidableLT S] [CaseMapping] in
/-- A loop over the elements of loops is one loop. -/
theorem foldlM_flatMap {ρ σ α β : Type} (step : σ → β → Except ρ σ) (parts : α → List β)
    (list : List α) (init : σ) :
    (list.flatMap parts).foldlM step init =
      list.foldlM (fun state element => (parts element).foldlM step state) init := by
  induction list generalizing init with
  | nil => rfl
  | cons first rest ih =>
    rw [List.flatMap_cons, List.foldlM_append, List.foldlM_cons]
    congr 1
    funext state
    exact ih state

omit [Preorder S] [DecidableLT S] [CaseMapping] in
/-- Elements that a loop skips may be left out. -/
theorem foldlM_filter_map {ρ σ α β : Type} (step : σ → β → Except ρ σ) (keep : α → Bool)
    (f : α → β) (list : List α) (init : σ) :
    ((list.filter keep).map f).foldlM step init =
      list.foldlM (fun state element => if keep element then step state (f element)
        else .ok state) init := by
  induction list generalizing init with
  | nil => rfl
  | cons first rest ih =>
    rw [List.foldlM_cons]
    by_cases kept : keep first = true
    · rw [List.filter_cons_of_pos kept, List.map_cons, List.foldlM_cons, if_pos kept]
      congr 1
      funext state
      exact ih state
    · rw [List.filter_cons_of_neg kept, if_neg kept]
      exact ih init

theorem run_eq : spread.run order =
    if spread.maxExtra = 0 ∨ spread.seeds = [] then []
    else outcome ((spread.visits order).foldlM spread.visitStep spread.start) := by
  unfold run spreadActivation
  split
  next => rfl
  next =>
    have steps : (spread.visits order).foldlM spread.visitStep spread.start =
        order.foldlM (spreadSeed { spread.host with visit := fun _ => order } spread.content
          spread.filters spread.names spread.validAt spread.maxExtra
          (seedEntities spread.seeds)) spread.start := by
      unfold visits
      rw [foldlM_flatMap]
      congr 1
      funext state seed
      unfold visitsOf
      rw [foldlM_filter_map]
      unfold spreadSeed
      congr 1
      funext state neighbour
      unfold spreadNeighbour
      by_cases seeded : neighbour.1 ∈ (seedEntities spread.seeds).map Prod.fst
      · rw [if_pos seeded, if_neg (by simpa using seeded)]
      · rw [if_neg seeded, if_pos (decide_eq_true seeded)]
        rfl
    dsimp only
    rw [steps]
    rfl

end Spread

end OpenMemory.Graph
