import OpenMemory.Graph.Guarantees.RevisionIdentity
import OpenMemory.Graph.Histories

/-!
# Pages cover the whole

Two loops go through a store page by page behind a cursor, while the store is written to.
A reader follows the cursors of a history, and collects each revision once and in order. A
backfill gives baselines to observations without a revision, and persists its cursor: each
id behind the first cursor is passed by one call up to the one that completes it, and has a
baseline from that call exactly where it had no revision then.
-/

namespace OpenMemory.Graph

open Foundation
open Merge (Blake3)

/-! ## Courses of a backfill -/

/-- A call of the backfill, between the stores before and after it. -/
structure BackfillCall where
  before : Database
  limit : Nat
  after : Database

namespace BackfillCall

def report (call : BackfillCall) : BackfillReport := call.before.backfillReport call.limit

/-- The call passes the id, whether or not it finds an observation there. -/
def Passes (call : BackfillCall) (id : String) : Prop := call.before.Passes call.limit id

/-- Under the key the call created a first revision of the observation as it was. -/
structure Creates (call : BackfillCall) (id key : String) : Prop where
  new : call.before.revisions.get? key = none
  baseline : ∃ revision row, call.after.revisions.get? key = some revision ∧
    call.before.observations.get? id = some row ∧ Ledger.Records revision id row none

/-- What a call does to the observations without a revision: those that it passes get one
each, and no revision is created otherwise. -/
structure Baselines (call : BackfillCall) : Prop where
  waiting : ∀ id, call.before.Waits id → call.Passes id → ∃! key, call.Creates id key
  only : ∀ key revision, call.before.revisions.get? key = none →
    call.after.revisions.get? key = some revision →
      call.before.Waits revision.observationId ∧ call.Passes revision.observationId

theorem baselines_of_done [Blake3] {call : BackfillCall} {draws : Draws}
    (done : call.before.backfillAudit draws call.limit = .ok call.after) : call.Baselines := by
  obtain ⟨baselined, -, -⟩ := Database.backfillAudit_baselined done
  refine ⟨fun id waits passes => ?_, fun key revision absent held => ?_⟩
  · obtain ⟨key, revision, row, new, held, present, -, records, headed⟩ :=
      baselined.created id (Database.mem_backfillPage.mpr ⟨waits, passes⟩)
    refine ⟨key, ⟨new, revision, row, held, present, records⟩, ?_⟩
    rintro other ⟨fresh, newer, _, stands, _, own⟩
    -- a new revision is the head of its observation, and there is one head
    obtain ⟨-, after, there, head⟩ := baselined.only other newer fresh stands
    rw [own.observation, headed] at there
    cases there
    exact (Option.some.inj head).symm
  · exact Database.mem_backfillPage.mp (baselined.only key revision absent held).1

end BackfillCall

namespace Database

variable {db db' last : Database} {draws : Draws} {id : String} {limit : Nat}

/-- Behind the cursor that a call leaves lies less than behind the one before. -/
theorem behind_of_nextCursor (behind : Behind (db.backfillReport limit).nextCursor id) :
    Behind db.domain.backfillCursor id := by
  by_cases empty : db.backfillPage (backfillLimit limit) = []
  · rwa [backfillReport_of_none empty] at behind
  · rw [backfillReport_of_some empty] at behind
    obtain ⟨final, ends⟩ := Option.isSome_iff_exists.mp (List.getLast?_isSome.mpr empty)
    have queued := mem_backfillQueue.mp (List.mem_of_mem_take (List.mem_of_getLast? ends))
    intro cursor held
    exact (queued.2 cursor held).trans (behind final ends)

theorem length_backfillQueue_le (fewer : ∀ id, db'.Waits id → db.Waits id)
    (further : ∀ id, Behind db'.domain.backfillCursor id → Behind db.domain.backfillCursor id) :
    db'.backfillQueue.length ≤ db.backfillQueue.length := by
  have distinct : db'.backfillQueue.Nodup := backfillQueue_increasing.imp ne_of_lt
  refine (List.subperm_of_subset distinct fun id member => ?_).length_le
  obtain ⟨waits, behind⟩ := mem_backfillQueue.mp member
  exact mem_backfillQueue.mpr ⟨fewer id waits, further id behind⟩

variable [Blake3] [PayloadCodec] [EntityMatching] {calls early : List BackfillCall}
  {final : BackfillCall}

/-- Calls of the backfill, with audited writes in between. -/
inductive Course : Database → List BackfillCall → Database → Prop
  | done (db : Database) : Course db [] db
  | write {db db' last : Database} {transaction : Transaction} {calls : List BackfillCall}
      (audited : transaction.Audited) (performed : db.perform transaction = .ok db')
      (rest : Course db' calls last) : Course db calls last
  | call {db db' last : Database} {draws : Draws} {limit : Nat} {calls : List BackfillCall}
      (performed : db.backfillAudit draws limit = .ok db') (rest : Course db' calls last) :
      Course db (⟨db, limit, db'⟩ :: calls) last

theorem Course.baselines (course : Course db calls last) : ∀ call ∈ calls, call.Baselines := by
  induction course with
  | done => exact fun _ member => nomatch member
  | write _ _ _ ih => exact ih
  | call performed rest ih =>
    intro call member
    rcases List.mem_cons.mp member with rfl | member
    · exact BackfillCall.baselines_of_done performed
    · exact ih call member

/-- Nothing begins to wait. -/
theorem Course.waits (course : Course db calls last) (waits : last.Waits id) : db.Waits id := by
  induction course with
  | done => exact waits
  | write audited performed _ ih => exact (perform_quiet audited performed).waits id (ih waits)
  | call performed _ ih => exact ((backfillAudit_baselined performed).1.waits_iff.mp (ih waits)).1

/-- What a call passes lies behind every cursor before it. -/
theorem Course.behind (course : Course db calls last) {call : BackfillCall} (member : call ∈ calls)
    (passes : call.Passes id) : Behind db.domain.backfillCursor id := by
  induction course with
  | done => cases member
  | write audited performed _ ih =>
    rw [← (perform_quiet audited performed).cursor]
    exact ih member
  | call performed _ ih =>
    rcases List.mem_cons.mp member with rfl | member
    · exact passes.1
    · have later := ih member
      rw [(backfillAudit_baselined performed).2.1] at later
      exact behind_of_nextCursor later

/-- **Each incomplete call** takes an observation from those that wait behind the cursor. -/
theorem Course.incomplete_le (course : Course db calls last)
    (incomplete : ∀ call ∈ calls, call.report.complete = false) :
    calls.length ≤ db.backfillQueue.length := by
  induction course with
  | done => exact Nat.zero_le _
  | write audited performed _ ih =>
    have quiet := perform_quiet audited performed
    refine (ih incomplete).trans (length_backfillQueue_le quiet.waits fun id behind => ?_)
    rwa [← quiet.cursor]
  | @call db db' last draws limit calls performed _ ih =>
    obtain ⟨baselined, cursor, -⟩ := backfillAudit_baselined performed
    have unfinished : (db.backfillReport limit).complete = false :=
      incomplete _ List.mem_cons_self
    have some_left : db.backfillPage (backfillLimit limit) ≠ [] := by
      intro empty
      rw [backfillReport_of_none empty] at unfinished
      cases unfinished
    obtain ⟨first, member⟩ := List.exists_mem_of_ne_nil _ some_left
    have rest := ih (List.forall_mem_cons.mp incomplete).2
    have gone : first ∉ db'.backfillQueue := by
      intro still
      exact (baselined.waits_iff.mp (mem_backfillQueue.mp still).1).2 member
    have distinct : (first :: db'.backfillQueue).Nodup :=
      List.nodup_cons.mpr ⟨gone, backfillQueue_increasing.imp ne_of_lt⟩
    have within : (first :: db'.backfillQueue).length ≤ db.backfillQueue.length := by
      refine (List.subperm_of_subset distinct fun id among => ?_).length_le
      rcases List.mem_cons.mp among with rfl | later
      · exact List.mem_of_mem_take member
      · obtain ⟨waits, behind⟩ := mem_backfillQueue.mp later
        rw [cursor] at behind
        exact mem_backfillQueue.mpr ⟨(baselined.waits_iff.mp waits).1, behind_of_nextCursor behind⟩
    exact (Nat.succ_le_succ rest).trans within

/-- One of the calls passes the id, and the others do not. -/
def PassedOnce (calls : List BackfillCall) (id : String) : Prop :=
  ∃ before call after, calls = before ++ call :: after ∧ call.Passes id ∧
    ∀ other ∈ before ++ after, ¬ other.Passes id

/-- **Up to the call that completes the backfill**, each id behind the cursor is passed
once, and is not without a revision in the end. -/
theorem Course.passedOnce (course : Course db (early ++ [final]) last)
    (incomplete : ∀ call ∈ early, call.report.complete = false)
    (complete : final.report.complete = true) (behind : Behind db.domain.backfillCursor id) :
    PassedOnce (early ++ [final]) id ∧ ¬ last.Waits id := by
  generalize listed : early ++ [final] = calls at course
  induction course generalizing early with
  | done => exact absurd listed (List.append_ne_nil_of_right_ne_nil _ (List.cons_ne_nil _ _))
  | write audited performed _ ih =>
    rw [← (perform_quiet audited performed).cursor] at behind
    exact ih incomplete behind listed
  | @call db db' last draws limit calls performed rest ih =>
    obtain ⟨baselined, cursor, -⟩ := backfillAudit_baselined performed
    -- an id that the call passes does not wait afterwards
    have settled : db.Passes limit id → ¬ last.Waits id := by
      intro passes waits
      obtain ⟨before, out⟩ := baselined.waits_iff.mp (rest.waits waits)
      exact out (mem_backfillPage.mpr ⟨before, passes⟩)
    cases early with
    | nil =>
      obtain ⟨rfl, rfl⟩ := List.cons.inj listed
      have passes : db.Passes limit id := ⟨behind, .inl complete⟩
      exact ⟨⟨[], _, [], rfl, passes, fun _ member => nomatch member⟩, settled passes⟩
    | cons first others =>
      obtain ⟨rfl, rfl⟩ := List.cons.inj listed
      have unfinished : (db.backfillReport limit).complete = false :=
        incomplete _ List.mem_cons_self
      by_cases passes : db.Passes limit id
      · refine ⟨⟨[], _, _, rfl, passes, fun other member again => ?_⟩, settled passes⟩
        obtain ⟨next, moved, inside⟩ := passes.2.resolve_left (by
          rw [unfinished]
          exact Bool.false_ne_true)
        have further := rest.behind member again
        rw [cursor, moved] at further
        exact absurd (further next rfl) (not_lt.mpr inside)
      · have further : Behind db'.domain.backfillCursor id := by
          rw [cursor]
          intro next moved
          by_contra inside
          exact passes ⟨behind, .inr ⟨next, moved, not_lt.mp inside⟩⟩
        obtain ⟨⟨before, call, after, split, here, elsewhere⟩, headed⟩ :=
          ih (List.forall_mem_cons.mp incomplete).2 further rfl
        refine ⟨⟨_ :: before, call, after, by rw [split]; rfl, here, ?_⟩, headed⟩
        intro other member
        rcases List.mem_cons.mp member with rfl | member
        · exact passes
        · exact elsewhere other member

end Database

/-! ## The guarantee -/

open Database

/-- **Pages cover the whole.** Whoever follows the cursors of a history from the start, with
any limit, collects each revision of the observation in the space once and in order, even
though revisions come in behind the cursors, and a reader who starts at any cursor comes to an
end.

Calls of the backfill and audited writes in any order: with more calls than observations
without a revision, one of them completes it. Each call creates one baseline for each
observation that it passes and that has no revision then, and no other revision. The calls
up to the one that completes the backfill pass each id behind the cursor once, and leave
none of them without a revision. -/
theorem pages_cover_the_whole [Blake3] [PayloadCodec] [EntityMatching] :
    (∀ (db last : Database) (spaceId : SpaceId) (observationId : String) (limit : Nat)
      (entries : List ObservationHistoryEntry), TidilyReached db → db.spaceId = some spaceId →
      Collects observationId limit db none entries last →
        entries.Pairwise (fun earlier later => earlier.key < later.key) ∧
          ∀ entry, entry ∈ entries ↔ entry ∈ last.historyRows spaceId observationId) ∧
    (∀ (db : Database) (observationId : String) (limit : Nat) (after : Option HistoryCursor),
      db.spaceId ≠ none → ¬ blank observationId →
        ∃ entries, Collects observationId limit db after entries db) ∧
    (∀ (db : Database) (draws : Draws) (limit : Nat), db.spaceId ≠ none →
      Undisturbed (db.backfillAudit draws limit) → ∃ db', db.backfillAudit draws limit = .ok db') ∧
    ∀ (db last : Database) (calls : List BackfillCall), Course db calls last →
      (db.backfillQueue.length < calls.length → ∃ call ∈ calls, call.report.complete = true) ∧
      (∀ call ∈ calls, call.Baselines) ∧
      ∀ (early : List BackfillCall) (final : BackfillCall), calls = early ++ [final] →
        (∀ call ∈ early, call.report.complete = false) → final.report.complete = true →
          ∀ id, Behind db.domain.backfillCursor id → PassedOnce calls id ∧ ¬ last.Waits id := by
  refine ⟨fun _ _ _ _ _ _ reached bound collects => collects.whole bound reached,
    fun db observationId limit after bound named => ?_,
    fun db draws limit bound undisturbed => (failsWith_backfillAudit bound).succeeds undisturbed,
    fun db last calls course => ⟨fun more => ?_, course.baselines, ?_⟩⟩
  · obtain ⟨spaceId, bound⟩ := Option.ne_none_iff_exists'.mp bound
    exact collects_exists bound named limit after
  · by_contra never
    have incomplete : ∀ call ∈ calls, call.report.complete = false := fun call member =>
      Bool.eq_false_iff.mpr fun complete => never ⟨call, member, complete⟩
    exact absurd (course.incomplete_le incomplete) (not_le.mpr more)
  · rintro early final rfl incomplete complete id behind
    exact course.passedOnce incomplete complete behind

/-! ## Two pages of a history and two calls of a backfill -/

namespace Database.PagedCoverage

open AuditBounds RevisionIdentity Merge.Fixture

def firstCall : Database := unwrap (bound.backfillAudit draws 1) (by decide)

def secondCall : Database := unwrap (firstCall.backfillAudit laterDraws 1) (by decide)

theorem first_done : bound.backfillAudit draws 1 = .ok firstCall := unwrap_eq

/-- The first call finds a full page, so it takes another one to see the end. -/
theorem two_calls :
    Course bound ([⟨bound, 1, firstCall⟩] ++ [⟨firstCall, 1, secondCall⟩]) secondCall :=
  .call first_done (.call unwrap_eq (.done _))

end Database.PagedCoverage

open AuditBounds Database.RevisionIdentity Database.PagedCoverage Merge.Fixture in
/-- The history of a promotion is read page by page, and a backfill comes to its end. -/
theorem promotion_read_through :
    (∃ entries, Collects "o" 1 promoted none entries promoted ∧
      ∀ entry, entry ∈ entries ↔ entry ∈ promoted.historyRows AuditBounds.space "o") ∧
    (∃ db', bound.backfillAudit draws 1 = .ok db') ∧
    PassedOnce ([⟨bound, 1, firstCall⟩] ++ [⟨firstCall, 1, secondCall⟩]) "o" ∧
      ¬ secondCall.Waits "o" := by
  have covered := pages_cover_the_whole
  obtain ⟨entries, collects⟩ := covered.2.1 promoted "o" 1 none (by decide) (by decide)
  have spaceId : promoted.spaceId = some AuditBounds.space := by decide
  refine ⟨⟨entries, collects, (covered.1 _ _ _ _ _ _ promoted_reached spaceId collects).2⟩,
    covered.2.2.1 bound draws 1 (by decide) ?_, ?_⟩
  · intro error failed
    cases first_done.symm.trans failed
  · have course := covered.2.2.2 bound secondCall _ two_calls
    refine course.2.2 _ _ rfl ?_ (by decide) "o" ?_
    · intro call member
      cases List.mem_singleton.mp member
      decide
    · intro cursor held
      cases held

end OpenMemory.Graph
