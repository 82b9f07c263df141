import OpenMemory.Merge.Guarantees.Equivalence

/-!
# Provenance

Building the result from the actions of a successful run gives every result
object the origins of exactly the records that were mapped to it. Nothing is
lost and nothing is invented: over all objects of a kind, the origins are those
of all records of that kind. The planner, which builds no result, still counts
them right: distinct origins have distinct tokens.
-/

namespace OpenMemory.Merge

open Foundation

/-! ## Records and objects -/

/-- The records that the actions map to the object of this name. -/
def mappedTo (kind : ResultKind) (name : String) (actions : List MergeAction) :
    List InputRecord :=
  (actions.filter fun action =>
    action.contribution.kind = kind ∧ action.contribution.result.asStr = name).map MergeAction.input

/-- The union of the origins of some records. -/
def unionOrigins (records : List InputRecord) : Finset OriginContribution :=
  records.foldr (fun record origins => record.origins ∪ origins) ∅

theorem mem_unionOrigins {records : List InputRecord} {origin : OriginContribution} :
    origin ∈ unionOrigins records ↔ ∃ record ∈ records, origin ∈ record.origins := by
  induction records with
  | nil => simp [unionOrigins]
  | cons first rest ih =>
    rw [unionOrigins, List.foldr_cons, Finset.mem_union, List.exists_mem_cons_iff, ← ih]
    rfl

theorem mem_mappedTo {kind : ResultKind} {name : String} {actions : List MergeAction}
    {record : InputRecord} :
    record ∈ mappedTo kind name actions ↔ ∃ action ∈ actions, action.contribution.kind = kind ∧
      action.contribution.result.asStr = name ∧ action.input = record := by
  simp only [mappedTo, List.mem_map, List.mem_filter, decide_eq_true_eq, and_assoc]

/-- The maps keep the origins of the input records. -/
structure ProvenanceKept (request : MergeRequest) (actions : List MergeAction)
    (maps : OriginMaps) : Prop where
  /-- Every input record is mapped to an object by exactly one action. -/
  covered : actions.map MergeAction.input = request.inputs
  /-- An object has the origins of the records mapped to it. -/
  each : ∀ kind name origins, (maps.of kind)[name]? = some origins ↔
    mappedTo kind name actions ≠ [] ∧ origins = unionOrigins (mappedTo kind name actions)
  /-- All objects of a kind have the origins of all records of the kind. -/
  all : ∀ (kind : ResultKind) (origin : OriginContribution),
    (∃ (name : String) (origins : Finset OriginContribution),
      (maps.of kind)[name]? = some origins ∧ origin ∈ origins) ↔
    origin ∈ unionOrigins (request.inputs.filter fun record => record.kind = kind)

section Assembled

variable {actions : List MergeAction}

/-- The origins gathered for an object are those of the records mapped to its name. -/
theorem Assembled.gathered_eq (assembled : Assembled actions) {kind : ResultKind}
    {result : ResultObjectId} (isOpen : result ∈ opened kind actions) :
    gathered kind result actions = unionOrigins (mappedTo kind result.asStr actions) := by
  ext origin
  rw [mem_gathered, mem_unionOrigins]
  constructor
  · rintro ⟨action, member, sameKind, rfl, found⟩
    exact ⟨_, mem_mappedTo.mpr ⟨action, member, sameKind, rfl, rfl⟩,
      action.contribution_input.2 ▸ found⟩
  · rintro ⟨record, mapped, found⟩
    obtain ⟨action, member, rfl, sameName, rfl⟩ := mem_mappedTo.mp mapped
    have sameResult := List.inj_on_of_nodup_map (assembled.names_distinct _)
      (assembled.result_opened member) isOpen sameName
    exact ⟨action, member, rfl, sameResult, action.contribution_input.2 ▸ found⟩

/-- An object is open under a name exactly when some record is mapped to the name. -/
theorem Assembled.opened_iff_mapped (assembled : Assembled actions) {kind : ResultKind}
    {name : String} :
    (∃ result ∈ opened kind actions, result.asStr = name) ↔ mappedTo kind name actions ≠ [] := by
  constructor
  · rintro ⟨result, isOpen, rfl⟩
    obtain ⟨action, member, sameKind, _, rfl⟩ := mem_opened.mp isOpen
    exact List.ne_nil_of_mem (mem_mappedTo.mpr ⟨action, member, sameKind, rfl, rfl⟩)
  · intro mapped
    obtain ⟨record, found⟩ := List.exists_mem_of_ne_nil _ mapped
    obtain ⟨action, member, rfl, rfl, _⟩ := mem_mappedTo.mp found
    exact ⟨_, assembled.result_opened member, rfl⟩

theorem Assembled.provenanceKept {request : MergeRequest} {maps : OriginMaps}
    (assembled : Assembled actions) (described : Describes maps actions)
    (covered : actions.map MergeAction.input = request.inputs) :
    ProvenanceKept request actions maps := by
  have each : ∀ kind name origins, (maps.of kind)[name]? = some origins ↔
      mappedTo kind name actions ≠ [] ∧ origins = unionOrigins (mappedTo kind name actions) := by
    intro kind name origins
    rw [described, ← assembled.opened_iff_mapped]
    constructor
    · rintro ⟨result, isOpen, rfl, rfl⟩
      exact ⟨⟨result, isOpen, rfl⟩, assembled.gathered_eq isOpen⟩
    · rintro ⟨⟨result, isOpen, rfl⟩, rfl⟩
      exact ⟨result, isOpen, rfl, assembled.gathered_eq isOpen⟩
  refine ⟨covered, each, ?_⟩
  intro kind origin
  rw [mem_unionOrigins, ← covered]
  constructor
  · rintro ⟨name, origins, found, member⟩
    obtain ⟨_, rfl⟩ := (each kind name origins).mp found
    obtain ⟨record, mapped, brought⟩ := mem_unionOrigins.mp member
    obtain ⟨action, actionMember, rfl, _, rfl⟩ := mem_mappedTo.mp mapped
    refine ⟨action.input, List.mem_filter.mpr ⟨List.mem_map_of_mem actionMember, ?_⟩, brought⟩
    exact decide_eq_true action.contribution_input.1.symm
  · rintro ⟨record, member, brought⟩
    obtain ⟨input, sameKind⟩ := List.mem_filter.mp member
    obtain ⟨action, actionMember, rfl⟩ := List.mem_map.mp input
    have mapped : action.input ∈ mappedTo kind action.contribution.result.asStr actions :=
      mem_mappedTo.mpr ⟨action, actionMember,
        action.contribution_input.1.trans (of_decide_eq_true sameKind), rfl, rfl⟩
    exact ⟨_, _, (each _ _ _).mpr ⟨List.ne_nil_of_mem mapped, rfl⟩,
      mem_unionOrigins.mpr ⟨_, mapped, brought⟩⟩

end Assembled

/-- **No provenance is lost or invented**: the result of a successful run holds the
origins of its records, and the plan counts them right unless tokens collide. -/
theorem provenance_kept [Blake3] {σ : Type} {request : MergeRequest} {sink : ActionSink σ} {s : σ}
    {plan : MergePlan} {actions : List MergeAction}
    (plans : request.Plans sink s plan actions) :
    ∃ maps, materialize actions = some maps ∧ ProvenanceKept request actions maps ∧
      (CollisionFree {bytes | bytes ∈ (broughtOrigins actions).map BroughtOrigin.bytes} →
        plan.accounting.retainedOrigins = totalOrigins maps.entities +
          totalOrigins maps.observations + totalOrigins maps.relations) := by
  obtain ⟨decisions, outcome, rfl, summarizes⟩ := plans.outcome
  have assembled := outcome.assembled
  obtain ⟨maps, built, described⟩ := materialize_describes assembled
  refine ⟨maps, built, assembled.provenanceKept described outcome.covered, ?_⟩
  intro free
  rw [summarizes.accounting]
  exact retained_eq assembled described free

/-! ## An example -/

section Example

open Fixture

/-- The origins of the sample are kept and counted. -/
theorem sample_provenance : ∃ plan actions,
    sampleRequest.Plans MemoryActionSink.toActionSink sampleSink plan actions ∧
      ∃ maps, materialize actions = some maps ∧ ProvenanceKept sampleRequest actions maps ∧
        plan.accounting.retainedOrigins = totalOrigins maps.entities +
          totalOrigins maps.observations + totalOrigins maps.relations := by
  obtain ⟨plan, plans⟩ := sample_plans
  obtain ⟨maps, built, keeps, retained⟩ := provenance_kept plans
  refine ⟨plan, _, plans, maps, built, keeps, retained ?_⟩
  exact sample_compared.mono fun _ member => .inr member

end Example

end OpenMemory.Merge
