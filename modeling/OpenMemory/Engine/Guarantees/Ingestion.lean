import OpenMemory.Engine.Shard

/-!
# Submissions are committed once

The store and the journal are tied together by the checkpoint row: a journaled
submission is settled in a state of the store exactly when its number is at
most the checkpoint of that state (`Shard.Invariant.settled_iff`). This holds
of every state that a crash may bring back, so a replay commits what that state
lacks and nothing else. In a running process the unsettled part of the journal
is the queue together with what a drain has in hand.
-/

namespace OpenMemory.Engine

open Foundation OpenMemory.Graph

/-! ## The invariant -/

/-- What holds of a state of the store that a crash may bring back. -/
structure ShardDatabase.Consistent (s : Shard) (db : ShardDatabase) : Prop where
  once : db.applied.Nodup
  known : ∀ e, db.Settled e → e ∈ s.submitted
  settled_iff : ∀ e ∈ s.journal, db.Settled e ↔ e.seq ≤ db.checkpoint
  kept : ∀ e ∈ s.everSynced, db.Settled e ∨ e ∈ s.journal.take s.synced

/-- The stages of a drain: when the taken entries are synced, and how far their
checkpoint has been committed. -/
def Drain.Sound (journal everSynced : List Entry) (checkpoint : Nat) : Drain → Prop
  | .idle => True
  | .taken drained flushed => drained ≠ [] ∧ ∀ e ∈ drained, e ∈ journal.take flushed
  | .synced drained => drained ≠ [] ∧ ∀ e ∈ drained, e ∈ everSynced
  | .retrying rest published => (∀ e ∈ rest, e ∈ everSynced) ∧ published ≤ checkpoint
  | .rejecting failed _ rest published =>
    (∀ e ∈ failed :: rest, e ∈ everSynced) ∧ published ≤ checkpoint
  | .publishing seq => seq ≤ checkpoint

/-- What holds of the memory of a running process. -/
structure Memory.Sound (s : Shard) (m : Memory) : Prop where
  queued : m.queued = s.journal.filter fun e => s.checkpoint < e.seq
  numbered : ∀ e ∈ s.journal, e.seq ≤ m.nextSeq
  checkpoint_le : s.checkpoint ≤ m.nextSeq
  durable_le : m.durable ≤ s.checkpoint
  drain : m.drain.Sound s.journal s.everSynced s.checkpoint
  passes : ∀ p ∈ m.passes, p.watermark ≤ m.durable ∧
    (p.complete = true → p.watermark ≤ s.database.stable.checkpoint)
  issued : ∀ e ∈ m.issued, e ∈ m.queued ∨ s.database.current.Settled e ∧ e ∈ s.everSynced
  reported : ∀ e ∈ s.reported, s.database.current.Settled e

structure Shard.Invariant (s : Shard) : Prop where
  sorted : s.journal.Pairwise fun a b => a.seq < b.seq
  known : ∀ e ∈ s.journal, e ∈ s.submitted
  identities : ∀ e ∈ s.submitted, e.id < s.submitted.length
  everSynced : ∀ e ∈ s.everSynced, e ∈ s.submitted
  reported : ∀ e ∈ s.reported, e ∈ s.everSynced
  rising : s.database.Rising ShardDatabase.checkpoint
  states : ∀ db ∈ s.database.states, db.Consistent s
  memory : ∀ m, s.memory = some m → m.Sound s

variable {e : Entry} {db : ShardDatabase}

namespace Shard.Invariant

variable {s : Shard}

theorem current (inv : s.Invariant) : s.database.current.Consistent s :=
  inv.states _ Durable.current_mem

/-- The checkpoint row settles the journaled submissions up to it. -/
theorem settled_iff (inv : s.Invariant) (member : e ∈ s.journal) :
    s.database.current.Settled e ↔ e.seq ≤ s.checkpoint :=
  inv.current.settled_iff e member

end Shard.Invariant

theorem fresh_invariant : Shard.fresh.Invariant where
  sorted := List.Pairwise.nil
  known := by simp [Shard.fresh]
  identities := by simp [Shard.fresh]
  everSynced := by simp [Shard.fresh]
  reported := by simp [Shard.fresh]
  rising := List.pairwise_singleton _ _
  states := by
    intro db member
    have initial : db = ⟨0, [], []⟩ := List.mem_singleton.mp member
    subst initial
    refine ⟨List.nodup_nil, ?_, ?_, ?_⟩
    · rintro e (impossible | impossible) <;> cases impossible
    · simp [Shard.fresh]
    · simp [Shard.fresh]
  memory := by
    intro m impossible
    cases impossible

/-! ## Queues in front of the checkpoint -/

section Queues

variable {journal done rest : List Entry} {checkpoint seq : Nat}

theorem filter_sorted (sorted : journal.Pairwise fun a b => a.seq < b.seq)
    (split : done ++ rest = journal.filter fun e => checkpoint < e.seq) :
    (done ++ rest).Pairwise fun a b => a.seq < b.seq := by
  rw [split]
  exact sorted.filter _

/-- Settling the front of a queue leaves the rest above the new checkpoint. -/
theorem filter_advance (sorted : journal.Pairwise fun a b => a.seq < b.seq)
    (split : done ++ rest = journal.filter fun e => checkpoint < e.seq)
    (last : done.getLast?.map Entry.seq = some seq) :
    (rest = journal.filter fun e => max checkpoint seq < e.seq) ∧
      (∀ e ∈ journal, e.seq ≤ max checkpoint seq ↔ e.seq ≤ checkpoint ∨ e ∈ done) := by
  have ordered := filter_sorted sorted split
  rw [Option.map_eq_some_iff] at last
  obtain ⟨final, isLast, rfl⟩ := last
  obtain ⟨front, rfl⟩ : ∃ front, done = front ++ [final] := by
    refine ⟨done.dropLast, ?_⟩
    exact (List.dropLast_append_getLast? final isLast).symm
  rw [List.pairwise_append, List.pairwise_append] at ordered
  obtain ⟨⟨_, _, below⟩, _, above⟩ := ordered
  have upTo : ∀ e ∈ front ++ [final], e.seq ≤ final.seq := by
    intro e member
    rcases List.mem_append.mp member with early | isFinal
    · exact Nat.le_of_lt (below e early final (by simp))
    · rw [List.mem_singleton.mp isFinal]
  have beyond : ∀ e ∈ rest, final.seq < e.seq := fun e member => above final (by simp) e member
  have isAbove : ∀ e ∈ (front ++ [final]) ++ rest, e ∈ journal ∧ checkpoint < e.seq := by
    intro e member
    rw [split, List.mem_filter, decide_eq_true_eq] at member
    exact member
  have finalAbove := (isAbove final (by simp)).2
  have top : max checkpoint final.seq = final.seq := Nat.max_eq_right (Nat.le_of_lt finalAbove)
  rw [top]
  constructor
  · have restrict : (journal.filter fun e => final.seq < e.seq) =
        ((front ++ [final]) ++ rest).filter fun e => final.seq < e.seq := by
      rw [split, List.filter_filter]
      apply List.filter_congr
      intro e _
      rw [← Bool.decide_and, decide_eq_decide]
      constructor
      · intro later
        exact ⟨later, finalAbove.trans later⟩
      · exact And.left
    rw [restrict, List.filter_append]
    have none_left : (front ++ [final]).filter (fun e => decide (final.seq < e.seq)) = [] := by
      rw [List.filter_eq_nil_iff]
      intro e member
      have := upTo e member
      rw [decide_eq_true_eq]
      omega
    have all_left : rest.filter (fun e => decide (final.seq < e.seq)) = rest := by
      rw [List.filter_eq_self]
      intro e member
      exact decide_eq_true (beyond e member)
    rw [none_left, all_left, List.nil_append]
  · intro e member
    constructor
    · intro low
      by_cases settled : e.seq ≤ checkpoint
      · exact .inl settled
      · right
        have queued : e ∈ (front ++ [final]) ++ rest := by
          rw [split, List.mem_filter, decide_eq_true_eq]
          exact ⟨member, by omega⟩
        rcases List.mem_append.mp queued with taken | later
        · exact taken
        · exact absurd (beyond e later) (by omega)
    · rintro (settled | taken)
      · omega
      · exact upTo e taken

end Queues

theorem mem_take_append {xs ys : List Entry} {n : Nat} (member : e ∈ xs.take n) :
    e ∈ (xs ++ ys).take n := by
  rw [List.take_append]
  exact List.mem_append_left _ member

/-! ## Steps that only change the memory -/

namespace Shard.Invariant

variable {s : Shard} {m : Memory}

variable (inv : s.Invariant)

include inv

theorem withMemory {reported : List Entry} {n : Memory} (reports : ∀ e ∈ reported, e ∈ s.everSynced)
    (sound : n.Sound { s with reported, memory := some n }) :
    Shard.Invariant { s with reported, memory := some n } where
  sorted := inv.sorted
  known := inv.known
  identities := inv.identities
  everSynced := inv.everSynced
  reported := reports
  rising := inv.rising
  states := by
    intro db member
    have c := inv.states db member
    exact ⟨c.once, c.known, c.settled_iff, c.kept⟩
  memory := by
    intro other same
    cases same
    exact sound

variable {s' : Shard}

section

variable (running : s.memory = some m)

include running

theorem take (stepped : Engine.take s m = some s') : s'.Invariant := by
  have sound := inv.memory m running
  unfold Engine.take at stepped
  split at stepped
  case isFalse => cases stepped
  case isTrue possible =>
    cases stepped
    have queued : m.buf = m.queued := by simp [Memory.queued, possible.1, Drain.inFlight]
    refine inv.withMemory inv.reported ⟨?_, sound.numbered, sound.checkpoint_le, sound.durable_le,
      ?_, sound.passes, ?_, sound.reported⟩
    · have same := sound.queued
      rw [← queued, ← List.append_nil m.buf] at same
      exact same
    · refine ⟨possible.2, ?_⟩
      intro e member
      rw [queued, sound.queued] at member
      simpa using (List.mem_filter.mp member).1
    · intro e member
      have before := sound.issued e member
      rw [← queued] at before
      simpa [Memory.queued, Drain.inFlight] using before

theorem publish (stepped : Engine.publish s m = some s') : s'.Invariant := by
  have sound := inv.memory m running
  have idle : ∀ seq, m.drain.inFlight = [] → seq ≤ s.checkpoint →
      Shard.Invariant { s with
        memory := some { m with durable := max m.durable seq, drain := .idle } } := by
    intro seq nothing committed
    have queued : m.queued = m.buf := by simp [Memory.queued, nothing]
    refine inv.withMemory inv.reported ⟨?_, sound.numbered, sound.checkpoint_le,
      max_le sound.durable_le committed, trivial, ?_, ?_, sound.reported⟩
    · exact queued.symm.trans sound.queued
    · intro p member
      exact ⟨(sound.passes p member).1.trans (le_max_left _ _), (sound.passes p member).2⟩
    · intro e member
      have before := sound.issued e member
      rw [queued] at before
      exact before
  have drain := sound.drain
  unfold Engine.publish at stepped
  split at stepped
  case h_1 seq isPublishing =>
    cases stepped
    rw [isPublishing] at drain
    exact idle seq (by rw [isPublishing]; rfl) drain
  case h_2 seq isRetrying =>
    cases stepped
    rw [isRetrying] at drain
    exact idle seq (by rw [isRetrying]; rfl) drain.2
  case h_3 => cases stepped

theorem beginMaintenance : (Engine.beginMaintenance s m).Invariant := by
  have sound := inv.memory m running
  refine inv.withMemory inv.reported ⟨sound.queued, sound.numbered, sound.checkpoint_le,
    sound.durable_le, ?_, ?_, sound.issued, sound.reported⟩
  · exact sound.drain
  · exact forall_mem_concat sound.passes ⟨le_rfl, fun impossible => by cases impossible⟩

theorem walCheckpoint_incomplete (pass : Nat) :
    Shard.Invariant { s with memory := some { m with passes := m.passes.eraseIdx pass } } := by
  have sound := inv.memory m running
  exact inv.withMemory inv.reported ⟨sound.queued, sound.numbered, sound.checkpoint_le,
    sound.durable_le, sound.drain, fun p member => sound.passes p (List.mem_of_mem_eraseIdx member),
    sound.issued, sound.reported⟩

theorem report (stepped : Engine.report s m e = some s') : s'.Invariant := by
  have sound := inv.memory m running
  unfold Engine.report at stepped
  split at stepped
  case isFalse => cases stepped
  case isTrue possible =>
    cases stepped
    have reached : e.seq ≤ m.durable := by
      by_contra beyond
      have silent : m.waitDurableResult e.seq = none := if_pos (Nat.lt_of_not_le beyond)
      rw [silent] at possible
      cases possible.2
    have settled : s.database.current.Settled e ∧ e ∈ s.everSynced := by
      rcases sound.issued e possible.1 with queued | settled
      · rw [sound.queued, List.mem_filter, decide_eq_true_eq] at queued
        have := sound.durable_le
        omega
      · exact settled
    have same : { s with reported := s.reported ++ [e] } =
        { s with reported := s.reported ++ [e], memory := some m } := by
      rw [← running]
    rw [same]
    refine inv.withMemory ?_ ⟨sound.queued, sound.numbered, sound.checkpoint_le, sound.durable_le,
      sound.drain, sound.passes, sound.issued, ?_⟩
    · exact forall_mem_concat inv.reported settled.2
    · exact forall_mem_concat sound.reported settled.1

/-! ## Submitting -/

theorem submit (req : RememberRequest) : (Engine.submit s m req).Invariant := by
  have sound := inv.memory m running
  let e : Entry := ⟨s.submitted.length, ⟨m.nextSeq + 1, req⟩⟩
  have beyond : s.checkpoint < e.seq := Nat.lt_succ_of_le sound.checkpoint_le
  have unknown : e ∉ s.submitted := by
    intro member
    exact absurd (inv.identities e member) (Nat.lt_irrefl _)
  refine ⟨?_, ?_, ?_, ?_, inv.reported, inv.rising, ?_, ?_⟩
  · change (s.journal ++ [e]).Pairwise _
    rw [List.pairwise_append]
    refine ⟨inv.sorted, List.pairwise_singleton _ _, ?_⟩
    intro a inJournal b isNew
    rw [List.mem_singleton.mp isNew]
    exact Nat.lt_succ_of_le (sound.numbered a inJournal)
  · intro a member
    exact (List.mem_append.mp member).elim
      (fun earlier => List.mem_append_left _ (inv.known a earlier)) (List.mem_append_right _)
  · intro a member
    have length : (s.submitted ++ [e]).length = s.submitted.length + 1 := List.length_append
    change a.id < (s.submitted ++ [e]).length
    rw [length]
    rcases List.mem_append.mp member with earlier | isNew
    · exact Nat.lt_succ_of_lt (inv.identities a earlier)
    · rw [List.mem_singleton.mp isNew]
      exact Nat.lt_succ_self _
  · intro a member
    exact List.mem_append_left _ (inv.everSynced a member)
  · intro db member
    have c := inv.states db member
    refine ⟨c.once, fun a settled => List.mem_append_left _ (c.known a settled), ?_, ?_⟩
    · refine forall_mem_concat c.settled_iff ?_
      constructor
      · intro settled
        exact absurd (c.known e settled) unknown
      · intro low
        exact absurd (beyond.trans_le low) (Nat.not_lt.mpr (inv.rising.le_current member))
    · intro a synced
      exact (c.kept a synced).imp_right mem_take_append
  · intro m' same
    cases same
    have queued : (s.journal ++ [e]).filter (fun a => s.checkpoint < a.seq) = m.queued ++ [e] := by
      rw [List.filter_append, ← sound.queued]
      simp [beyond]
    refine ⟨?_, ?_, ?_, sound.durable_le, ?_, sound.passes, ?_, sound.reported⟩
    · change m.drain.inFlight ++ (m.buf ++ [e]) = _
      rw [← List.append_assoc]
      exact queued.symm
    · exact forall_mem_concat (fun a earlier => Nat.le_succ_of_le (sound.numbered a earlier)) le_rfl
    · exact Nat.le_succ_of_le sound.checkpoint_le
    · have drain := sound.drain
      revert drain
      cases m.drain with
      | taken drained flushed =>
        exact fun drain => ⟨drain.1, fun a member => mem_take_append (drain.2 a member)⟩
      | idle | synced | retrying | rejecting | publishing => exact id
    · intro a member
      change a ∈ m.drain.inFlight ++ (m.buf ++ [e]) ∨ _
      rw [← List.append_assoc]
      rcases List.mem_append.mp member with earlier | isNew
      · exact (sound.issued a earlier).imp_left (List.mem_append_left _)
      · exact .inl (List.mem_append_right _ isNew)

/-! ## Syncing -/

theorem sync {records : Nat} (stepped : Engine.sync s m records = some s') : s'.Invariant := by
  have sound := inv.memory m running
  have drain := sound.drain
  unfold Engine.sync at stepped
  split at stepped
  case h_2 => cases stepped
  case h_1 drained flushed isTaken =>
    split at stepped
    case isFalse => cases stepped
    case isTrue covers =>
      cases stepped
      rw [isTaken] at drain
      have wider : ∀ e ∈ s.journal.take flushed, e ∈ s.journal.take records := by
        intro e member
        exact (List.take_subset_take_left s.journal covers.1) member
      refine ⟨inv.sorted, inv.known, inv.identities, ?_, ?_, inv.rising, ?_, ?_⟩
      · intro e member
        rcases List.mem_append.mp member with earlier | isNew
        · exact inv.everSynced e earlier
        · exact inv.known e (List.mem_of_mem_take isNew)
      · exact fun e member => List.mem_append_left _ (inv.reported e member)
      · intro db member
        have c := inv.states db member
        refine ⟨c.once, c.known, c.settled_iff, ?_⟩
        intro e synced
        rcases List.mem_append.mp synced with earlier | isNew
        · exact (c.kept e earlier).imp_right fun kept =>
            List.take_subset_take_left s.journal (le_max_left _ _) kept
        · exact .inr (List.take_subset_take_left s.journal (le_max_right _ _) isNew)
      · intro m' same
        cases same
        have queued : m.queued = drained ++ m.buf := by simp [Memory.queued, isTaken, Drain.inFlight]
        refine ⟨queued.symm.trans sound.queued, sound.numbered, sound.checkpoint_le,
          sound.durable_le, ?_, sound.passes, ?_, sound.reported⟩
        · exact ⟨drain.1, fun e member => List.mem_append_right _ (wider e (drain.2 e member))⟩
        · intro e member
          have before := sound.issued e member
          rw [queued] at before
          exact before.imp_right fun settled => ⟨settled.1, List.mem_append_left _ settled.2⟩

/-! ## Committing -/

/-- **A commit that settles the front of the queue**, by applying or by
rejecting it, and moves the checkpoint to its last number. -/
theorem commit {done rest : List Entry} {seq : Nat} {m' : Memory} (front : m.queued = done ++ rest)
    (last : done.getLast?.map Entry.seq = some seq) (synced : ∀ e ∈ done, e ∈ s.everSynced)
    (settles : ∀ e, db.Settled e ↔ s.database.current.Settled e ∨ e ∈ done)
    (moves : db.checkpoint = max s.checkpoint seq) (once : db.applied.Nodup)
    (queued : m'.queued = rest)
    (kept : m'.nextSeq = m.nextSeq ∧ m'.durable = m.durable ∧ m'.passes = m.passes ∧
      m'.issued = m.issued) (drain : m'.drain.Sound s.journal s.everSynced db.checkpoint) :
    Shard.Invariant { s with database := s.database.commit db, memory := some m' } := by
  have sound := inv.memory m running
  obtain ⟨sameNext, sameDurable, samePasses, sameIssued⟩ := kept
  have split := front.symm.trans sound.queued
  obtain ⟨isRest, settledUpTo⟩ := filter_advance inv.sorted split last
  have inJournal : ∀ e ∈ done, e ∈ s.journal := by
    intro e member
    have queuedEntry : e ∈ done ++ rest := List.mem_append_left _ member
    rw [split] at queuedEntry
    exact (List.mem_filter.mp queuedEntry).1
  have seqLe : seq ≤ m.nextSeq := by
    rw [Option.map_eq_some_iff] at last
    obtain ⟨final, isLast, rfl⟩ := last
    exact sound.numbered final (inJournal final (List.mem_of_getLast? isLast))
  have now : Shard.checkpoint { s with database := s.database.commit db, memory := some m' } =
      db.checkpoint := congrArg ShardDatabase.checkpoint Durable.current_commit
  have grows : s.checkpoint ≤ db.checkpoint := moves ▸ le_max_left _ _
  refine ⟨inv.sorted, inv.known, inv.identities, inv.everSynced, inv.reported,
    inv.rising.commit grows, ?_, ?_⟩
  · intro state member
    rcases Durable.mem_states_commit.mp member with earlier | rfl
    · have c := inv.states state earlier
      exact ⟨c.once, c.known, c.settled_iff, c.kept⟩
    · refine ⟨once, ?_, ?_, ?_⟩
      · intro e settled
        rcases (settles e).mp settled with before | isDone
        · exact inv.current.known e before
        · exact inv.known e (inJournal e isDone)
      · intro e member
        rw [settles, moves, settledUpTo e member, inv.settled_iff member]
      · intro e everSynced
        rcases inv.current.kept e everSynced with before | inTake
        · exact .inl ((settles e).mpr (.inl before))
        · exact .inr inTake
  · intro other same
    cases same
    refine ⟨?_, ?_, ?_, ?_, now ▸ drain, ?_, ?_, ?_⟩
    · rw [queued, isRest, now, moves]
    · exact fun e member => (sound.numbered e member).trans_eq sameNext.symm
    · rw [now, moves, sameNext]
      exact max_le sound.checkpoint_le seqLe
    · rw [now, sameDurable]
      exact sound.durable_le.trans grows
    · rw [samePasses, sameDurable]
      exact sound.passes
    · intro e member
      rw [sameIssued] at member
      change _ ∨ (s.database.commit db).current.Settled e ∧ _
      rw [queued, Durable.current_commit]
      rcases sound.issued e member with waiting | ⟨settled, everSynced⟩
      · rw [front] at waiting
        rcases List.mem_append.mp waiting with isDone | later
        · exact .inr ⟨(settles e).mpr (.inr isDone), synced e isDone⟩
        · exact .inl later
      · exact .inr ⟨(settles e).mpr (.inl settled), everSynced⟩
    · intro e member
      change (s.database.commit db).current.Settled e
      rw [Durable.current_commit]
      exact (settles e).mpr (.inl (sound.reported e member))

omit running in
/-- A batch of unsettled submissions, applied to the current state. -/
theorem applied_once {batch : List Entry} (journaled : ∀ e ∈ batch, e ∈ s.journal)
    (unsettled : ∀ e ∈ batch, s.checkpoint < e.seq) (distinct : batch.Nodup) :
    (s.database.current.applied ++ batch).Nodup := by
  rw [List.nodup_append]
  refine ⟨inv.current.once, distinct, ?_⟩
  rintro e applied _ member rfl
  have low := (inv.settled_iff (journaled e member)).mp (.inl applied)
  exact absurd (unsettled e member) (Nat.not_lt.mpr low)

omit running in
omit inv in
theorem settled_rememberBatch {batch : List Entry} {seq : Nat} :
    (db.rememberBatch batch seq).Settled e ↔ db.Settled e ∨ e ∈ batch := by
  simp only [ShardDatabase.Settled, ShardDatabase.rememberBatch, List.mem_append]
  tauto

omit running in
omit inv in
theorem settled_reject {failed : Entry} :
    (db.reject failed).Settled e ↔ db.Settled e ∨ e ∈ [failed] := by
  simp only [ShardDatabase.Settled, ShardDatabase.reject, List.mem_append]
  tauto

omit running in
theorem journal_nodup : s.journal.Nodup :=
  inv.sorted.imp fun below same => absurd (same ▸ below) (Nat.lt_irrefl _)

/-- The queue of a sound memory holds unsettled journaled submissions. -/
theorem queued_unsettled (member : e ∈ m.queued) : e ∈ s.journal ∧ s.checkpoint < e.seq := by
  rw [(inv.memory m running).queued, List.mem_filter, decide_eq_true_eq] at member
  exact member

/-- What the front of the queue adds when it is applied. -/
theorem front_once {done rest : List Entry}
    (front : m.queued = done ++ rest) : (s.database.current.applied ++ done).Nodup := by
  have inQueue : ∀ e ∈ done, e ∈ m.queued := fun e member => front ▸ List.mem_append_left _ member
  apply inv.applied_once
  · exact fun e member => (inv.queued_unsettled running (inQueue e member)).1
  · exact fun e member => (inv.queued_unsettled running (inQueue e member)).2
  · have distinct : m.queued.Nodup := by
      rw [(inv.memory m running).queued]
      exact inv.journal_nodup.filter _
    rw [front] at distinct
    exact distinct.of_append_left

theorem commitBatch {succeeds : Bool}
    (stepped : Engine.commitBatch s m succeeds = some s') : s'.Invariant := by
  have sound := inv.memory m running
  have drain := sound.drain
  unfold Engine.commitBatch at stepped
  split at stepped
  case h_2 => cases stepped
  case h_1 drained isSynced =>
    rw [isSynced] at drain
    have front : m.queued = drained ++ m.buf := by simp [Memory.queued, isSynced, Drain.inFlight]
    cases succeeds with
    | false =>
      cases stepped
      refine inv.withMemory inv.reported ⟨front.symm.trans sound.queued, sound.numbered,
        sound.checkpoint_le, sound.durable_le, ⟨drain.2, Nat.zero_le _⟩, sound.passes, ?_,
        sound.reported⟩
      intro e member
      have before := sound.issued e member
      rw [front] at before
      exact before
    | true =>
      cases stepped
      cases isLast : drained.getLast? with
      | none => exact absurd (List.getLast?_eq_none_iff.mp isLast) drain.1
      | some final =>
        exact inv.commit running front (by rw [isLast]; rfl) drain.2
          (fun e => settled_rememberBatch) rfl (inv.front_once running front) rfl
          ⟨rfl, rfl, rfl, rfl⟩ (le_max_right _ _)

theorem retry {failure : Option MemoryError}
    (stepped : Engine.retry s m failure = some s') : s'.Invariant := by
  have sound := inv.memory m running
  have drain := sound.drain
  unfold Engine.retry at stepped
  split at stepped
  case h_2 => cases stepped
  case h_1 e rest published isRetrying =>
    rw [isRetrying] at drain
    have front : m.queued = [e] ++ (rest ++ m.buf) := by
      simp [Memory.queued, isRetrying, Drain.inFlight]
    cases failure with
    | none =>
      cases stepped
      exact inv.commit running front rfl (fun a member => drain.1 a (List.mem_singleton.mp member ▸
        List.mem_cons_self)) (fun a => settled_rememberBatch) rfl (inv.front_once running front)
        rfl ⟨rfl, rfl, rfl, rfl⟩
        ⟨(List.forall_mem_cons.mp drain.1).2, le_max_right _ _⟩
    | some error =>
      cases stepped
      refine inv.withMemory inv.reported ⟨front.symm.trans sound.queued, sound.numbered,
        sound.checkpoint_le, sound.durable_le, drain, sound.passes, ?_, sound.reported⟩
      intro a member
      have before := sound.issued a member
      rw [front] at before
      exact before

theorem commitCheckpoint {succeeds : Bool}
    (stepped : Engine.commitCheckpoint s m succeeds = some s') : s'.Invariant := by
  have sound := inv.memory m running
  have drain := sound.drain
  unfold Engine.commitCheckpoint at stepped
  split at stepped
  case h_2 => cases stepped
  case h_1 e error rest published isRejecting =>
    rw [isRejecting] at drain
    have front : m.queued = [e] ++ (rest ++ m.buf) := by
      simp [Memory.queued, isRejecting, Drain.inFlight]
    cases succeeds with
    | true =>
      cases stepped
      exact inv.commit running front rfl (fun a member => drain.1 a (List.mem_singleton.mp member ▸
        List.mem_cons_self)) (fun a => settled_reject) rfl inv.current.once rfl
        ⟨rfl, rfl, rfl, rfl⟩
        ⟨(List.forall_mem_cons.mp drain.1).2, le_max_right _ _⟩
    | false =>
      cases stepped
      refine inv.withMemory inv.reported ⟨front.symm.trans sound.queued, sound.numbered,
        sound.checkpoint_le, sound.durable_le, drain.2, sound.passes, ?_, sound.reported⟩
      intro a member
      have before := sound.issued a member
      rw [front] at before
      exact before

/-! ## Maintenance -/

theorem walCheckpoint {pass : Nat}
    {complete : Bool} (stepped : Engine.walCheckpoint s m pass complete = some s') :
    s'.Invariant := by
  have sound := inv.memory m running
  unfold Engine.walCheckpoint at stepped
  split at stepped
  case h_1 => cases stepped
  case h_2 p isPass =>
    cases complete with
    | false =>
      cases stepped
      exact inv.walCheckpoint_incomplete running pass
    | true =>
      cases stepped
      have c := inv.current
      refine ⟨inv.sorted, inv.known, inv.identities, inv.everSynced, inv.reported,
        Durable.Rising.checkpoint, ?_, ?_⟩
      · intro db member
        rw [Durable.mem_states_checkpoint] at member
        subst member
        exact ⟨c.once, c.known, c.settled_iff, c.kept⟩
      · intro other same
        cases same
        refine ⟨sound.queued, sound.numbered, sound.checkpoint_le, sound.durable_le, sound.drain,
          ?_, sound.issued, sound.reported⟩
        intro q member
        have read : q.watermark ≤ m.durable := by
          rcases List.mem_or_eq_of_mem_set member with earlier | rfl
          · exact (sound.passes q earlier).1
          · exact (sound.passes p (List.mem_of_getElem? isPass)).1
        exact ⟨read, fun _ => read.trans sound.durable_le⟩

theorem truncate {pass : Nat} (stepped : Engine.truncate s m pass = some s') : s'.Invariant := by
  have sound := inv.memory m running
  unfold Engine.truncate at stepped
  split at stepped
  case h_1 => cases stepped
  case h_2 p isPass =>
    dsimp only at stepped
    split at stepped
    case isFalse =>
      cases stepped
      exact inv.walCheckpoint_incomplete running pass
    case isTrue possible =>
      cases stepped
      obtain ⟨complete, _, allNumbered⟩ := possible
      -- the checkpoint of the pass covers everything that was numbered
      have covers : m.nextSeq ≤ s.database.stable.checkpoint :=
        allNumbered.trans_le ((sound.passes p (List.mem_of_getElem? isPass)).2 complete)
      have settled : ∀ db ∈ s.database.states, ∀ e ∈ s.journal, db.Settled e := by
        intro db member e inJournal
        have c := inv.states db member
        exact (c.settled_iff e inJournal).mpr
          ((sound.numbered e inJournal).trans (covers.trans (inv.rising.stable_le member)))
      have empty : m.queued = [] := by
        rw [sound.queued, List.filter_eq_nil_iff]
        intro e member
        have low := (inv.settled_iff member).mp (settled _ Durable.current_mem e member)
        rw [decide_eq_true_eq]
        omega
      refine ⟨List.Pairwise.nil, by simp, inv.identities, inv.everSynced, inv.reported,
        inv.rising, ?_, ?_⟩
      · intro db member
        have c := inv.states db member
        refine ⟨c.once, c.known, by simp, ?_⟩
        intro e everSynced
        rcases c.kept e everSynced with before | inTake
        · exact .inl before
        · exact .inl (settled db member e (List.mem_of_mem_take inTake))
      · intro other same
        cases same
        refine ⟨empty, by simp, sound.checkpoint_le, sound.durable_le, ?_, ?_, sound.issued,
          sound.reported⟩
        · have nothing : m.drain.inFlight = [] := (List.append_eq_nil_iff.mp empty).1
          have drain := sound.drain
          revert drain nothing
          cases m.drain with
          | taken drained flushed => exact fun nothing drain => absurd nothing drain.1
          | idle | synced | retrying | rejecting | publishing => exact fun _ drain => drain
        · exact fun q member => sound.passes q (List.mem_of_mem_eraseIdx member)

end

/-! ## Crashing and restarting -/

theorem crash {records commits : Nat}
    (stepped : Engine.crash s records commits = some s') : s'.Invariant := by
  unfold Engine.crash at stepped
  split at stepped
  case isTrue => cases stepped
  case isFalse keeps =>
    cases stepped
    have inJournal : ∀ e ∈ s.journal.take records, e ∈ s.journal :=
      fun e member => List.mem_of_mem_take member
    refine ⟨inv.sorted.sublist (List.take_sublist _ _), fun e member => inv.known e
      (inJournal e member), inv.identities, inv.everSynced, inv.reported,
      inv.rising.rollback commits, ?_, ?_⟩
    · intro db member
      have c := inv.states db (Durable.mem_states_of_rollback member)
      refine ⟨c.once, c.known, fun e inTake => c.settled_iff e (inJournal e inTake), ?_⟩
      intro e everSynced
      have enough : (s.journal.take records).take s.synced = s.journal.take s.synced := by
        rw [List.take_take, Nat.min_eq_left (Nat.le_of_not_lt keeps)]
      rw [enough]
      exact c.kept e everSynced
    · intro m impossible
      cases impossible

/-- Everything a crash may have taken from the store is in the journal. -/
theorem settled_after_replay (grows : ∀ e, s.database.current.Settled e → db.Settled e)
    (replays : ∀ e ∈ s.journal, db.Settled e) : ∀ e ∈ s.everSynced, db.Settled e := by
  intro e everSynced
  rcases inv.current.kept e everSynced with before | inTake
  · exact grows e before
  · exact replays e (List.mem_of_mem_take inTake)

variable {serde : SerdeJson}

theorem start (faithful : serde.Faithful (s.submitted.map Entry.record))
    (finite : ∀ e ∈ s.submitted, e.req.finite = true)
    (stepped : Engine.start serde s = some s') : s'.Invariant := by
  have journaled : ∀ r ∈ s.journal.map Entry.record, r ∈ s.submitted.map Entry.record := by
    intro r member
    obtain ⟨e, inJournal, rfl⟩ := List.mem_map.mp member
    exact List.mem_map_of_mem (inv.known e inJournal)
  have ofJournal := faithful.mono journaled
  have allFinite : ∀ r ∈ s.journal.map Entry.record, r.req.finite = true := by
    intro r member
    obtain ⟨e, inJournal, rfl⟩ := List.mem_map.mp member
    exact finite e (inv.known e inJournal)
  obtain ⟨replay, scanned, gathered⟩ := scanJournal_finite ofJournal allFinite s.checkpoint
  have isReplayed : replayed serde s.checkpoint s.journal =
      s.journal.filter fun e => s.checkpoint < e.seq := by
    apply List.filter_congr
    intro e member
    have back := (ofJournal.fromStr_iff (List.mem_map_of_mem member)).mpr
      (allFinite _ (List.mem_map_of_mem member))
    simp [reread, back]
  have seen : ∀ e ∈ s.journal, e.seq ≤ replay.lastSeq :=
    fun e member => gathered.seen e.record (List.mem_map_of_mem member)
  have pendingNil : replay.pending = [] ↔ (s.journal.filter fun e => s.checkpoint < e.seq) = [] := by
    rw [gathered.pending, List.map_eq_nil_iff, List.filter_map, List.map_eq_nil_iff]
    rfl
  unfold Engine.start at stepped
  rw [scanned, isReplayed] at stepped
  simp only [Option.some.injEq] at stepped
  have memorySound : ∀ (database : Durable ShardDatabase),
      database.current.checkpoint = replay.lastSeq →
      (∀ e, s.database.current.Settled e → database.current.Settled e) →
      (∀ e ∈ s.journal, database.current.Settled e) →
      Memory.Sound { s with database } ⟨[], replay.lastSeq, replay.lastSeq, [], .idle, [], []⟩ := by
    intro database now grows replays
    have checkpoint : Shard.checkpoint { s with database } = replay.lastSeq := now
    refine ⟨?_, seen, checkpoint.le, checkpoint.ge, trivial, by simp, by simp, ?_⟩
    · symm
      rw [checkpoint]
      change s.journal.filter _ = []
      rw [List.filter_eq_nil_iff]
      intro e member
      have := seen e member
      rw [decide_eq_true_eq]
      omega
    · exact fun e member => inv.settled_after_replay grows replays e (inv.reported e member)
  by_cases nothing : replay.pending = []
  · rw [if_pos nothing] at stepped
    have low : ∀ e ∈ s.journal, s.database.current.Settled e := by
      intro e member
      have := List.filter_eq_nil_iff.mp (pendingNil.mp nothing) e member
      rw [decide_eq_true_eq, not_lt] at this
      exact (inv.settled_iff member).mpr this
    have now : s.database.current.checkpoint = replay.lastSeq := by
      rw [gathered.lastSeq, gathered.quiet nothing]
      exact (Nat.max_eq_left (Nat.zero_le _)).symm
    have sound := memorySound s.database now (fun _ => id) low
    subst stepped
    have down := inv.withMemory (n := ⟨[], replay.lastSeq, replay.lastSeq, [], .idle, [], []⟩)
      inv.reported ⟨sound.queued, sound.numbered, sound.checkpoint_le, sound.durable_le, trivial,
        by simp, by simp, sound.reported⟩
    exact down
  · rw [if_neg nothing] at stepped
    let batch := s.journal.filter fun e => s.checkpoint < e.seq
    let db := s.database.current.rememberBatch batch replay.maxPendingSeq
    have inBatch : ∀ e, e ∈ batch ↔ e ∈ s.journal ∧ s.checkpoint < e.seq := by
      intro e
      rw [List.mem_filter, decide_eq_true_eq]
    have now : db.checkpoint = replay.lastSeq := gathered.lastSeq.symm
    have grows : ∀ e, s.database.current.Settled e → db.Settled e :=
      fun e settled => settled_rememberBatch.mpr (.inl settled)
    have replays : ∀ e ∈ s.journal, db.Settled e := by
      intro e member
      by_cases low : e.seq ≤ s.checkpoint
      · exact grows e ((inv.settled_iff member).mpr low)
      · exact settled_rememberBatch.mpr (.inr ((inBatch e).mpr ⟨member, Nat.lt_of_not_le low⟩))
    have same : (s.database.commit db).current = db := Durable.current_commit
    have sound := memorySound (s.database.commit db) (by rw [same]; exact now)
      (by rw [same]; exact grows) (by rw [same]; exact replays)
    subst stepped
    refine ⟨inv.sorted, inv.known, inv.identities, inv.everSynced, inv.reported,
      inv.rising.commit (le_max_left _ _), ?_, ?_⟩
    · intro state member
      rcases Durable.mem_states_commit.mp member with earlier | rfl
      · have c := inv.states state earlier
        exact ⟨c.once, c.known, c.settled_iff, c.kept⟩
      · refine ⟨?_, ?_, ?_, ?_⟩
        · exact inv.applied_once (fun e member => ((inBatch e).mp member).1)
            (fun e member => ((inBatch e).mp member).2) (inv.journal_nodup.filter _)
        · intro e settled
          rcases settled_rememberBatch.mp settled with before | isNew
          · exact inv.current.known e before
          · exact inv.known e ((inBatch e).mp isNew).1
        · intro e member
          exact ⟨fun _ => now ▸ seen e member, fun _ => replays e member⟩
        · exact fun e everSynced => .inl (inv.settled_after_replay grows replays e everSynced)
    · intro other isMemory
      cases isMemory
      exact ⟨sound.queued, sound.numbered, sound.checkpoint_le, sound.durable_le, trivial,
        by simp, by simp, sound.reported⟩

end Shard.Invariant

/-! ## Runs -/

section Runs

variable {serde : SerdeJson} {s s' : Shard} {action : Action}

theorem step_submitted (stepped : step serde s action = some s') :
    s'.submitted = s.submitted ∨ ∃ m req, action = .submit req ∧ s' = submit s m req := by
  unfold step at stepped
  split at stepped
  case h_3 req m _ => exact .inr ⟨m, req, rfl, (Option.some.inj stepped).symm⟩
  case h_1 =>
    unfold start at stepped
    split at stepped
    · cases stepped
    · cases stepped
      exact .inl rfl
  case h_2 =>
    unfold crash at stepped
    split at stepped <;> cases stepped
    exact .inl rfl
  case h_4 =>
    unfold take at stepped
    split at stepped <;> cases stepped
    exact .inl rfl
  case h_5 =>
    unfold sync at stepped
    split at stepped
    · split at stepped <;> cases stepped
      exact .inl rfl
    · cases stepped
  case h_6 =>
    unfold commitBatch at stepped
    split at stepped
    · dsimp only at stepped
      split at stepped <;>
      · cases stepped
        exact .inl rfl
    · cases stepped
  case h_7 =>
    unfold retry at stepped
    split at stepped
    · split at stepped <;>
      · cases stepped
        exact .inl rfl
    · cases stepped
  case h_8 =>
    unfold commitCheckpoint at stepped
    split at stepped
    · split at stepped <;>
      · cases stepped
        exact .inl rfl
    · cases stepped
  case h_9 =>
    unfold publish at stepped
    split at stepped <;> cases stepped <;> exact .inl rfl
  case h_10 =>
    cases stepped
    exact .inl rfl
  case h_11 =>
    unfold walCheckpoint at stepped
    split at stepped
    · cases stepped
    · split at stepped <;>
      · cases stepped
        exact .inl rfl
  case h_12 =>
    unfold truncate at stepped
    split at stepped
    · cases stepped
    · dsimp only at stepped
      split at stepped <;>
      · cases stepped
        exact .inl rfl
  case h_13 =>
    unfold report at stepped
    split at stepped <;> cases stepped
    exact .inl rfl
  case h_14 => cases stepped

theorem submitted_grows (stepped : step serde s action = some s') :
    ∀ e ∈ s.submitted, e ∈ s'.submitted := by
  intro e member
  rcases step_submitted stepped with same | ⟨m, req, _, rfl⟩
  · exact same ▸ member
  · exact List.mem_append_left _ member

/-- **Every step keeps the invariant**, as long as all submissions are finite. -/
theorem step_invariant (inv : s.Invariant) (faithful : serde.Faithful (s.submitted.map Entry.record))
    (finite : ∀ e ∈ s.submitted, e.req.finite = true)
    (stepped : step serde s action = some s') : s'.Invariant := by
  unfold step at stepped
  split at stepped
  case h_1 => exact inv.start faithful finite stepped
  case h_2 => exact inv.crash stepped
  case h_3 running =>
    cases stepped
    exact inv.submit running _
  case h_4 running => exact inv.take running stepped
  case h_5 running => exact inv.sync running stepped
  case h_6 running => exact inv.commitBatch running stepped
  case h_7 running => exact inv.retry running stepped
  case h_8 running => exact inv.commitCheckpoint running stepped
  case h_9 running => exact inv.publish running stepped
  case h_10 running =>
    cases stepped
    exact inv.beginMaintenance running
  case h_11 running => exact inv.walCheckpoint running stepped
  case h_12 running => exact inv.truncate running stepped
  case h_13 running => exact inv.report running stepped
  case h_14 => cases stepped

theorem run_invariant {actions : List Action} (runs : run serde actions = some s)
    (faithful : serde.Faithful (s.submitted.map Entry.record))
    (finite : ∀ e ∈ s.submitted, e.req.finite = true) : s.Invariant := by
  refine foldlM_some_induction (motive := fun s =>
    serde.Faithful (s.submitted.map Entry.record) → (∀ e ∈ s.submitted, e.req.finite = true) →
      s.Invariant) (fun _ _ => fresh_invariant) ?_ runs faithful finite
  intro action _ before after ih stepped faithful finite
  have grows := submitted_grows stepped
  have fewer : serde.Faithful (before.submitted.map Entry.record) := by
    apply faithful.mono
    intro r member
    obtain ⟨e, inSubmitted, rfl⟩ := List.mem_map.mp member
    exact List.mem_map_of_mem (grows e inSubmitted)
  have finiteBefore : ∀ e ∈ before.submitted, e.req.finite = true :=
    fun e member => finite e (grows e member)
  exact step_invariant (ih fewer finiteBefore) fewer finiteBefore stepped

/-- The submissions of a run are those of its actions. -/
theorem submitted_of_run {actions : List Action} (runs : run serde actions = some s) :
    ∀ e ∈ s.submitted, Action.submit e.req ∈ actions := by
  refine foldlM_some_induction (motive := fun s =>
    ∀ e ∈ s.submitted, Action.submit e.req ∈ actions) (by simp [Shard.fresh]) ?_ runs
  intro action listed before after ih stepped e member
  rcases step_submitted stepped with same | ⟨m, req, rfl, rfl⟩
  · exact ih e (same ▸ member)
  · rcases List.mem_append.mp member with earlier | isNew
    · exact ih e earlier
    · rw [List.mem_singleton.mp isNew]
      exact listed

end Runs

/-! ## The guarantee -/

/-- What a running process can rely on. -/
structure ExactlyOnce (serde : SerdeJson) (s : Shard) (m : Memory) : Prop where
  once : ∀ e ∈ s.submitted, s.database.current.applied.count e ≤ 1
  accounted : ∀ e ∈ s.everSynced, e ∈ s.database.current.applied ∨ e ∈ m.queued ∨
    e ∈ replayed serde s.checkpoint s.journal ∨ e ∈ s.database.current.rejected
  bounded : ∀ e ∈ m.queued ++ s.journal, ¬ s.database.current.Settled e → s.checkpoint < e.seq
  reported : ∀ e ∈ s.reported, e ∈ s.database.current.applied ∨ e ∈ s.database.current.rejected

/-- **Ingestion is exactly-once** in every run whose submissions are finite. -/
theorem ingestion_exactly_once (serde : SerdeJson) (actions : List Action) (s : Shard) (m : Memory)
    (runs : run serde actions = some s) (running : s.memory = some m)
    (faithful : serde.Faithful (s.submitted.map Entry.record))
    (finite : ∀ req, Action.submit req ∈ actions → req.finite = true) :
    ExactlyOnce serde s m := by
  have inv := run_invariant runs faithful
    (fun e member => finite e.req (submitted_of_run runs e member))
  have sound := inv.memory m running
  refine ⟨?_, ?_, ?_, sound.reported⟩
  · intro e _
    exact List.nodup_iff_count_le_one.mp inv.current.once e
  · intro e everSynced
    rcases inv.current.kept e everSynced with (applied | rejected) | inTake
    · exact .inl applied
    · exact .inr (.inr (.inr rejected))
    · have inJournal := List.mem_of_mem_take inTake
      by_cases low : e.seq ≤ s.checkpoint
      · rcases (inv.settled_iff inJournal).mpr low with applied | rejected
        · exact .inl applied
        · exact .inr (.inr (.inr rejected))
      · right
        left
        rw [sound.queued, List.mem_filter, decide_eq_true_eq]
        exact ⟨inJournal, Nat.lt_of_not_le low⟩
  · intro e member open_
    have inJournal : e ∈ s.journal := by
      rcases List.mem_append.mp member with queued | journaled
      · exact (inv.queued_unsettled running queued).1
      · exact journaled
    by_contra low
    exact open_ ((inv.settled_iff inJournal).mpr (Nat.le_of_not_lt low))

/-- One submission, from its ticket to the report of its outcome. -/
def sampleActions : List Action :=
  [.start, .submit (sampleRecord 1 "alpha").req, .take, .sync 1, .commitBatch true, .publish,
    .report ⟨0, sampleRecord 1 "alpha"⟩]

theorem sample_exactly_once :
    ∃ s m, run sampleSerde sampleActions = some s ∧ s.memory = some m ∧
      ExactlyOnce sampleSerde s m := by
  refine ⟨_, _, rfl, rfl, ingestion_exactly_once sampleSerde sampleActions _ _ rfl rfl
    (sampleSerde_faithful.mono (by decide)) ?_⟩
  intro req member
  have isAlpha : req = (sampleRecord 1 "alpha").req := by simpa [sampleActions] using member
  rw [isAlpha]
  decide

/-! ### A confidence that JSON cannot carry -/

def sampleNanEntry : Entry := ⟨0, ⟨1, sampleNan⟩⟩

/-- The process dies between the sync of a record and its commit, and restarts. -/
def sampleNanActions : List Action :=
  [.start, .submit sampleNan, .take, .sync 1, .crash 1 0] ++ [.start]

/-- The shard after the crash, with the given memory. -/
def sampleNanShard (memory : Option Memory) : Shard where
  journal := [sampleNanEntry]
  synced := 1
  database := ⟨⟨0, [], []⟩, []⟩
  memory := memory
  submitted := [sampleNanEntry]
  everSynced := [sampleNanEntry]
  reported := []

theorem start_sampleNan :
    start sampleSerde (sampleNanShard none) =
      some (sampleNanShard (some ⟨[], 0, 0, [], .idle, [], []⟩)) := by
  have faithful : sampleSerde.Faithful [sampleNanEntry.record] :=
    sampleSerde_faithful.mono (by decide)
  have unread : [sampleNanEntry.record].filterMap (reread sampleSerde) = [] := by decide
  have scanned : scanJournal sampleSerde (sampleNanShard none).checkpoint
      (journalOf sampleSerde ((sampleNanShard none).journal.map Entry.record)) =
        .ok ⟨0, [], 0⟩ := by
    change scanJournal sampleSerde 0 (journalOf sampleSerde [sampleNanEntry.record]) = _
    rw [scanJournal, readRecords_journalOf faithful, unread]
    rfl
  rw [start, scanned]
  rfl

theorem run_sampleNan :
    run sampleSerde sampleNanActions =
      some (sampleNanShard (some ⟨[], 0, 0, [], .idle, [], []⟩)) := by
  have crashed : run sampleSerde [.start, .submit sampleNan, .take, .sync 1, .crash 1 0] =
      some (sampleNanShard none) := by
    decide
  have restarted : step sampleSerde (sampleNanShard none) .start =
      some (sampleNanShard (some ⟨[], 0, 0, [], .idle, [], []⟩)) := by
    rw [← start_sampleNan]
    simp only [step, sampleNanShard]
  rw [run] at crashed
  rw [run, sampleNanActions, List.foldlM_append, crashed, Option.bind_eq_bind, Option.bind_some,
    List.foldlM_cons, restarted, Option.bind_eq_bind, Option.bind_some, List.foldlM_nil]
  rfl

/-- The synced submission is neither committed nor rejected, and replay will
never find it. -/
theorem sampleNan_lost :
    ∃ s m, run sampleSerde sampleNanActions = some s ∧ s.memory = some m ∧
      ¬ ExactlyOnce sampleSerde s m := by
  refine ⟨_, _, run_sampleNan, rfl, ?_⟩
  intro guarantee
  have lost := guarantee.accounted sampleNanEntry (List.mem_singleton_self _)
  revert lost
  decide

end OpenMemory.Engine