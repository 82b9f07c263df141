import OpenMemory.Index.SearchCache

/-!
# Coherence of the query cache

What a search returns was made by the hybrid engine for the same arguments, and was
read from the stores after every change of a write that had returned before the search
began. A cached answer that is older than a change lives only as long as the write is
still going to clear the cache.

Three things break this: an answer that is read before a change and put into the cache
after the clear, a write that fails after a change and does not clear, and a lookup
with another query vector, of which the key knows nothing.
-/

namespace OpenMemory.Index.SearchCache

open Foundation OpenMemory.Graph OpenMemory.Engine.Partition

/-! ## Equal keys -/

/-- The arguments that the engine looks at: a keyword search ignores the vector. -/
def Question.looked (question : Question) : Question :=
  { question with
    queryVector := if question.mode = .keywordOnly then [] else question.queryVector }

theorem modeTag_injective : Function.Injective modeTag := by
  intro first second
  cases first <;> cases second <;> decide

variable {question : Question} {reads : List Nat} {startedAt : Nat}

/-- The bytes of a key determine all arguments but the vector. -/
theorem eq_of_keyBytes {other : Question} (same : keyBytes question = keyBytes other) :
    question.queryText = other.queryText ∧ question.topK = other.topK ∧
      question.mode = other.mode ∧ question.filtersHash = other.filtersHash := by
  have sized : ∀ value : UInt64, value.toNat < 256 ^ 8 := fun value => value.toNat_lt
  unfold keyBytes at same
  obtain ⟨text, same⟩ := selfDelimiting_hashStr.read same
  obtain ⟨topK, same⟩ := selfDelimiting_leBytes 8 (sized _) (sized _) same
  obtain ⟨mode, same⟩ := List.cons.inj same
  refine ⟨text, UInt64.toNat_inj.mp topK, modeTag_injective mode, UInt64.toNat_inj.mp ?_⟩
  exact (selfDelimiting_leBytes 8).injective (sized _) (sized _) same

/-- The hash tells the questions asked apart where their bytes differ. -/
def CollisionFree [NameHash] (asked : Set Question) : Prop :=
  ∀ question ∈ asked, ∀ other ∈ asked, cacheKey question = cacheKey other →
    keyBytes question = keyBytes other

/-- Two questions look the same when all arguments agree that the engine looks at. -/
theorem looked_eq {other : Question} (text : question.queryText = other.queryText)
    (topK : question.topK = other.topK) (mode : question.mode = other.mode)
    (filters : question.filtersHash = other.filtersHash)
    (vector : other.mode ≠ .keywordOnly → question.queryVector = other.queryVector) :
    question.looked = other.looked := by
  unfold Question.looked
  rw [text, topK, mode, filters]
  split
  next => rfl
  next looks => rw [vector looks]

/-! ## What is claimed -/

/-- What a search returns is what the hybrid engine returned for the same arguments,
read after all changes of the writes that had returned. -/
def Coherent (s : State) : Prop :=
  ∀ call question startedAt found, s.calls call = .returned question startedAt found →
    found ∈ s.computed ∧ found.question.looked = question.looked ∧
      ∀ write result time, s.calls write = .written result time → time < startedAt →
        ∀ change ∈ s.changes, change.call = write → ∀ read ∈ found.reads, change.time < read

/-- The call is a write that is waiting for an answer. -/
def Call.Asking : Call → Prop
  | .writing (.ask _ _) => True
  | _ => False

/-- The store answers with an error. -/
def Request.fails : (request : Request) → request.Answer → Bool
  | .vectorInsert _, .error _ | .keywordInsert _, .error _ => true
  | .vectorDelete _, .error _ | .keywordDelete _, .error _ => true
  | _, _ => false

section Meets

variable [NameHash]

/-- A lookup finds no live answer for another vector, unless the engine does not look
at it. An answer is put into the cache while every write that changed a store since it
was read is still at work. A write that fails has changed no store since a cached
answer was read. -/
def Meets (ttlMs : Int64) (s : State) : Action → Prop
  | .lookup call => ∀ question startedAt now entry,
      s.calls call = .looking question startedAt now →
        s.cache.peek (cacheKey question) = some entry → entry.live ttlMs now →
          question.mode ≠ .keywordOnly → entry.found.question.queryVector = question.queryVector
  | .put call _ => ∀ question startedAt reads results,
      s.calls call = .computing question startedAt reads (.done (.ok results)) →
        ∀ read ∈ reads, ∀ change ∈ s.changes, read ≤ change.time → (s.calls change.call).Asking
  | .answer call request answer changed => (s.calls call).Asking → request.fails answer →
      ∀ key entry, (key, entry) ∈ s.cache.entries → ∀ read ∈ entry.found.reads,
        changed = false ∧ ∀ change ∈ s.changes, change.call = call → change.time < read
  | _ => True

end Meets

/-! ## Writes clear the cache before they succeed -/

/-- A program that goes on with a request after every answer that is no error, until
it clears the cache. -/
def Guarded : Calls Request Request.Answer (IndexResult Unit) → Prop
  | .done _ => True
  | .ask request next => ∀ answer, Guarded (next answer) ∧
      (request ≠ .clearCache → request.fails answer = false → (Call.writing (next answer)).Asking)

theorem guarded_invalidate : Guarded CachedSearchEngine.invalidate.run :=
  fun _ => ⟨trivial, fun other => absurd rfl other⟩

theorem guarded_program (write : Write) : Guarded write.program.run := by
  cases write with
  | invalidate => exact guarded_invalidate
  | insert entries =>
    have keyword : Guarded (ExceptT.mk (Calls.request (Request.keywordInsert entries)) >>=
        fun _ => CachedSearchEngine.invalidate : Engine Unit).run := by
      rintro (error | done)
      · exact ⟨trivial, fun _ failed => by cases failed⟩
      · exact ⟨guarded_invalidate, fun _ _ => trivial⟩
    unfold Write.program CachedSearchEngine.insert HybridSearchEngine.insert
    dsimp only
    split
    next =>
      rintro (error | done)
      · exact ⟨trivial, fun _ failed => by cases failed⟩
      · exact ⟨keyword, fun _ _ => trivial⟩
    next => exact keyword
  | deleteByUri uri =>
    rintro (error | vectorCount)
    · exact ⟨trivial, fun _ failed => by cases failed⟩
    · refine ⟨?_, fun _ _ => trivial⟩
      rintro (error | keywordCount)
      · exact ⟨trivial, fun _ failed => by cases failed⟩
      · exact ⟨fun _ => ⟨trivial, fun other => absurd rfl other⟩, fun _ _ => trivial⟩

/-! ## The invariant -/

/-- A write, at work or finished. -/
def Call.IsWrite : Call → Prop
  | .writing _ | .written _ _ => True
  | _ => False

/-- A cached answer stands under the key of its question, and the writes that changed a
store since it was read are still going to clear it. -/
structure Entered [NameHash] (asked : Set Question) (s : State) (key : UInt64)
    (entry : CacheEntry) : Prop where
  asked : entry.found.question ∈ asked
  key_eq : key = cacheKey entry.found.question
  computed : entry.found ∈ s.computed
  past : ∀ read ∈ entry.found.reads, read < s.now
  pending : ∀ read ∈ entry.found.reads, ∀ change ∈ s.changes, read ≤ change.time →
    (s.calls change.call).Asking

/-- What holds of a call. -/
def Call.Sound (asked : Set Question) (now : Nat) : Call → Prop
  | .writing program => Guarded program
  | .looking question startedAt _ => question ∈ asked ∧ startedAt < now
  | .computing question startedAt reads _ =>
    question ∈ asked ∧ startedAt < now ∧ ∀ read ∈ reads, startedAt < read ∧ read < now
  | .returned _ startedAt _ => startedAt < now
  | _ => True

structure Kept [NameHash] (asked : Set Question) (s : State) : Prop where
  past : ∀ change ∈ s.changes, change.time < s.now
  owned : ∀ change ∈ s.changes, (s.calls change.call).IsWrite
  written : ∀ change ∈ s.changes, ∀ result time, s.calls change.call = .written result time →
    change.time < time
  calls : ∀ call, (s.calls call).Sound asked s.now
  entries : ∀ key entry, (key, entry) ∈ s.cache.entries → Entered asked s key entry
  coherent : Coherent s

theorem Call.Sound.later {asked : Set Question} {now : Nat} {phase : Call}
    (sound : phase.Sound asked now) : phase.Sound asked (now + 1) := by
  cases phase with
  | looking => exact ⟨sound.1, Nat.lt_succ_of_lt sound.2⟩
  | computing =>
    exact ⟨sound.1, Nat.lt_succ_of_lt sound.2.1,
      fun read member => ⟨(sound.2.2 read member).1, Nat.lt_succ_of_lt (sound.2.2 read member).2⟩⟩
  | returned => exact Nat.lt_succ_of_lt sound
  | _ => exact sound

/-- The state after a step of a call. -/
def State.after (s : State) (call : Nat) (phase : Call) (cache : Lru UInt64 CacheEntry)
    (changes : List Change) (computed : List Found) : State where
  now := s.now + 1
  cache := cache
  calls := Function.update s.calls call phase
  changes := changes
  computed := computed

section Steps

variable [NameHash] {asked : Set Question} {s : State} {call : Nat} {phase : Call}
  {cache : Lru UInt64 CacheEntry} {changes : List Change} {computed : List Found}

theorem kept_fresh (capacity : Nat) : Kept asked (.fresh capacity) where
  past change member := by cases member
  owned change member := by cases member
  written change member := by cases member
  calls call := trivial
  entries key entry member := by cases member
  coherent call question startedAt found returned := by cases returned

variable (kept : Kept asked s)

include kept

/-- **The frame of a step.** A step changes one call, logs changes of that call only,
and leaves every cached answer pending on writes that still clear it. -/
theorem Kept.after (logged : ∀ change ∈ changes, change ∈ s.changes ∨ change = ⟨call, s.now⟩)
    (grown : ∀ found ∈ s.computed, found ∈ computed)
    (owned : ∀ change ∈ changes, change.call = call → phase.IsWrite)
    (written : ∀ result time, phase = .written result time → time = s.now ∧ changes = s.changes)
    (sound : phase.Sound asked (s.now + 1)) (entries : ∀ key entry, (key, entry) ∈ cache.entries →
      Entered asked (s.after call phase cache changes computed) key entry)
    (returned : ∀ question startedAt found, phase = .returned question startedAt found →
      found ∈ computed ∧ found.question.looked = question.looked ∧
        ∀ write result time, s.calls write = .written result time → time < startedAt →
          ∀ change ∈ s.changes, change.call = write → ∀ read ∈ found.reads, change.time < read) :
    Kept asked (s.after call phase cache changes computed) := by
  have self : (s.after call phase cache changes computed).calls call = phase :=
    Function.update_self ..
  have others : ∀ {other}, other ≠ call →
      (s.after call phase cache changes computed).calls other = s.calls other :=
    fun differs => Function.update_of_ne differs ..
  have before : ∀ {change}, change ∈ changes → change.call ≠ call → change ∈ s.changes := by
    intro change member differs
    rcases logged change member with old | rfl
    · exact old
    · exact absurd rfl differs
  refine ⟨?_, ?_, ?_, ?_, entries, ?_⟩
  · intro change member
    rcases logged change member with old | rfl
    · exact Nat.lt_succ_of_lt (kept.past change old)
    · exact Nat.lt_succ_self _
  · intro change member
    by_cases same : change.call = call
    · rw [same, self]
      exact owned change member same
    · rw [others same]
      exact kept.owned change (before member same)
  · intro change member result time finished
    by_cases same : change.call = call
    · rw [same, self] at finished
      obtain ⟨rfl, rfl⟩ := written result time finished
      exact kept.past change member
    · rw [others same] at finished
      exact kept.written change (before member same) result time finished
  · intro other
    by_cases same : other = call
    · rw [same, self]
      exact sound
    · rw [others same]
      exact (kept.calls other).later
  · intro other question startedAt found result
    -- a write that had returned before the search began is another call than this one
    have apart : ∀ write outcome time,
        (s.after call phase cache changes computed).calls write = .written outcome time →
          time < startedAt → write ≠ call ∧ s.calls write = .written outcome time := by
      intro write outcome time finished earlier
      by_cases same : write = call
      · rw [same, self] at finished
        obtain ⟨rfl, -⟩ := written outcome time finished
        have later := kept.calls other
        by_cases again : other = call
        · rw [again, self] at result
          rw [result] at finished
          cases finished
        · rw [others again] at result
          rw [result] at later
          exact absurd earlier (Nat.lt_asymm later)
      · exact ⟨same, (others same).symm.trans finished⟩
    by_cases same : other = call
    · rw [same, self] at result
      obtain ⟨member, looked, fresh⟩ := returned question startedAt found result
      refine ⟨member, looked, fun write outcome time finished earlier change inside owner => ?_⟩
      obtain ⟨differs, old⟩ := apart write outcome time finished earlier
      exact fresh write outcome time old earlier change (before inside (owner ▸ differs)) owner
    · rw [others same] at result
      obtain ⟨member, looked, fresh⟩ := kept.coherent other question startedAt found result
      refine ⟨grown found member, looked, fun write outcome time finished earlier change inside
        owner => ?_⟩
      obtain ⟨differs, old⟩ := apart write outcome time finished earlier
      exact fresh write outcome time old earlier change (before inside (owner ▸ differs)) owner

omit kept in
/-- A cached answer stays what it was, if this call settles what it owes. -/
theorem Entered.after {key : UInt64} {entry : CacheEntry} (entered : Entered asked s key entry)
    (logged : ∀ change ∈ changes, change ∈ s.changes ∨ change = ⟨call, s.now⟩)
    (grown : ∀ found ∈ s.computed, found ∈ computed)
    (settled : phase.Asking ∨ ∀ read ∈ entry.found.reads, ∀ change ∈ changes,
      change.call = call → change.time < read) :
    Entered asked (s.after call phase cache changes computed) key entry where
  asked := entered.asked
  key_eq := entered.key_eq
  computed := grown _ entered.computed
  past read member := Nat.lt_succ_of_lt (entered.past read member)
  pending := by
    intro read member change inside later
    by_cases same : change.call = call
    · rcases settled with asking | settled
      · change ((Function.update s.calls call phase) change.call).Asking
        rw [same, Function.update_self]
        exact asking
      · exact absurd later (Nat.not_le.mpr (settled read member change inside same))
    · change ((Function.update s.calls call phase) change.call).Asking
      rw [Function.update_of_ne same]
      refine entered.pending read member change ?_ later
      rcases logged change inside with old | rfl
      · exact old
      · exact absurd rfl same

/-- A step that logs nothing, of a call that is no write or whose write does not end. -/
theorem Kept.quiet (asking : phase.Asking ∨ ∀ change ∈ s.changes, change.call = call →
      ¬ (s.calls call).Asking) (owned : (s.calls call).IsWrite → phase.IsWrite)
    (written : ∀ result time, phase = .written result time → time = s.now)
    (sound : phase.Sound asked (s.now + 1))
    (entries : ∀ key entry, (key, entry) ∈ cache.entries → (key, entry) ∈ s.cache.entries)
    (returned : ∀ question startedAt found, phase = .returned question startedAt found →
      found ∈ s.computed ∧ found.question.looked = question.looked ∧
        ∀ write result time, s.calls write = .written result time → time < startedAt →
          ∀ change ∈ s.changes, change.call = write → ∀ read ∈ found.reads, change.time < read) :
    Kept asked (s.after call phase cache s.changes s.computed) := by
  refine kept.after (fun change member => .inl member) (fun found member => member) ?_
    (fun result time finished => ⟨written result time finished, rfl⟩) sound ?_ returned
  · intro change member same
    exact owned (same ▸ kept.owned change member)
  · intro key entry member
    have entered := kept.entries key entry (entries key entry member)
    refine entered.after (fun change member => .inl member) (fun found member => member) ?_
    refine asking.imp_right fun idle read inside change logged same => ?_
    refine Nat.lt_of_not_le fun later => idle change logged same ?_
    exact same ▸ entered.pending read inside change logged later

theorem Kept.write (idle : s.calls call = .idle) (write : Write) :
    Kept asked (s.after call (.writing write.program.run) s.cache s.changes s.computed) := by
  refine kept.quiet (.inr fun change member same asking => ?_) (fun _ => trivial)
    (fun _ _ impossible => by cases impossible) (guarded_program write)
    (fun key entry member => member) (fun _ _ _ impossible => by cases impossible)
  rw [idle] at asking
  exact asking

theorem Kept.search (idle : s.calls call = .idle) (now : Int64) (member : question ∈ asked) :
    Kept asked (s.after call (.looking question s.now now) s.cache s.changes s.computed) := by
  refine kept.quiet (.inr fun change member same asking => ?_) (fun writes => ?_)
    (fun _ _ impossible => by cases impossible) ⟨member, Nat.lt_succ_self _⟩
    (fun key entry member => member) (fun _ _ _ impossible => by cases impossible)
  · rw [idle] at asking
    exact asking
  · rw [idle] at writes
    exact writes.elim

theorem Kept.lookup (free : CollisionFree asked) {ttlMs now : Int64}
    (phase : s.calls call = .looking question startedAt now)
    (meets : Meets ttlMs s (.lookup call)) :
    Kept asked { lookup ttlMs s call question startedAt now with now := s.now + 1 } := by
  have holds := kept.calls call
  rw [phase] at holds
  obtain ⟨member, started⟩ := holds
  have idle : ∀ change ∈ s.changes, change.call = call → ¬ (s.calls call).Asking := by
    intro change _ _ asking
    rw [phase] at asking
    exact asking
  have computing : ∀ cache : Lru UInt64 CacheEntry,
      (∀ key entry, (key, entry) ∈ cache.entries → (key, entry) ∈ s.cache.entries) →
      ∀ program, Kept asked (s.after call (.computing question startedAt [] program) cache
        s.changes s.computed) := by
    intro cache fewer program
    refine kept.quiet (.inr idle) (fun writes => ?_) (fun _ _ impossible => by cases impossible)
      ⟨member, Nat.lt_succ_of_lt started, fun read inside => by cases inside⟩ fewer
      (fun _ _ _ impossible => by cases impossible)
    rw [phase] at writes
    exact writes.elim
  unfold SearchCache.lookup
  dsimp only
  split
  next entry used found =>
    have present : (cacheKey question, entry) ∈ s.cache.entries :=
      Lru.mem_of_get (congrArg Prod.fst found)
    have fewer : ∀ key other, (key, other) ∈ used.entries → (key, other) ∈ s.cache.entries := by
      intro key other inside
      exact Lru.mem_of_mem_get (by rw [found]; exact inside)
    split
    next live =>
      have entered := kept.entries _ entry present
      refine kept.quiet (.inr idle) (fun writes => ?_) (fun _ _ impossible => by cases impossible)
        (Nat.lt_succ_of_lt started) fewer ?_
      · rw [phase] at writes
        exact writes.elim
      · rintro _ _ _ ⟨⟩
        refine ⟨entered.computed, ?_, ?_⟩
        · obtain ⟨text, topK, mode, filters⟩ := eq_of_keyBytes
            (free _ entered.asked _ member entered.key_eq.symm)
          have vector := meets question startedAt now entry phase
            (Lru.get_fst.symm.trans (congrArg Prod.fst found)) live
          exact looked_eq text topK mode filters vector
        · intro write result time finished earlier change inside owner read reading
          refine Nat.lt_of_not_le fun later => ?_
          have asking := entered.pending read reading change inside later
          rw [owner, finished] at asking
          exact asking
    next => exact computing _ (fun key other inside => fewer key other (Lru.mem_of_mem_pop inside)) _
  next unused found =>
    refine computing _ (fun key other inside => ?_) _
    exact Lru.mem_of_mem_get (by rw [found]; exact Lru.mem_of_mem_pop inside)

theorem Kept.answerWrite {request : Request}
    {next : request.Answer → Calls Request Request.Answer (IndexResult Unit)}
    (phase : s.calls call = .writing (.ask request next)) (writes : request.writes)
    (answer : request.Answer) (changed : Bool)
    (meets : ∀ key entry, (key, entry) ∈ s.cache.entries → ∀ read ∈ entry.found.reads,
      request.fails answer → changed = false ∧
        ∀ change ∈ s.changes, change.call = call → change.time < read) :
    Kept asked (s.after call (.writing (next answer)) s.cache
      (if changed then ⟨call, s.now⟩ :: s.changes else s.changes) s.computed) := by
  have guarded : Guarded (.ask request next) := by
    have sound := kept.calls call
    rw [phase] at sound
    exact sound
  obtain ⟨later, goesOn⟩ := guarded answer
  have logged : ∀ change ∈ (if changed then (⟨call, s.now⟩ : Change) :: s.changes else s.changes),
      change ∈ s.changes ∨ change = ⟨call, s.now⟩ := by
    intro change member
    split at member
    next => exact (List.mem_cons.mp member).symm
    next => exact .inl member
  refine kept.after logged (fun found member => member) (fun _ _ _ => trivial)
    (fun _ _ impossible => by cases impossible) later ?_
    (fun _ _ _ impossible => by cases impossible)
  intro key entry member
  refine (kept.entries key entry member).after logged (fun found member => member) ?_
  cases fails : request.fails answer with
  | false =>
    refine .inl (goesOn ?_ fails)
    rintro rfl
    cases writes
  | true =>
    refine .inr fun read reading change inside owner => ?_
    obtain ⟨rfl, older⟩ := meets key entry member read reading fails
    exact older change inside owner

/-- A store or the fusion answers a search. -/
theorem Kept.answerSearch {request : Request}
    {program later : Calls Request Request.Answer (IndexResult (List SearchResult))}
    (phase : s.calls call = .computing question startedAt reads program) :
    Kept asked (s.after call (.computing question startedAt
      (if request.reads then reads ++ [s.now] else reads) later) s.cache s.changes
      s.computed) := by
  have holds := kept.calls call
  rw [phase] at holds
  obtain ⟨member, started, ordered⟩ := holds
  refine kept.quiet (.inr fun change _ _ asking => ?_) (fun writes => ?_)
    (fun _ _ impossible => by cases impossible) ⟨member, Nat.lt_succ_of_lt started, ?_⟩
    (fun key entry member => member) (fun _ _ _ impossible => by cases impossible)
  · rw [phase] at asking
    exact asking
  · rw [phase] at writes
    exact writes.elim
  · have old : ∀ read ∈ reads, startedAt < read ∧ read < s.now + 1 := fun read inside =>
      ⟨(ordered read inside).1, Nat.lt_succ_of_lt (ordered read inside).2⟩
    intro read inside
    split at inside
    next =>
      rcases List.mem_append.mp inside with before | now
      · exact old read before
      · rw [List.mem_singleton.mp now]
        exact ⟨started, Nat.lt_succ_self _⟩
    next => exact old read inside

theorem Kept.clear {next : Unit → Calls Request Request.Answer (IndexResult Unit)}
    (phase : s.calls call = .writing (.ask .clearCache next)) :
    Kept asked (s.after call (.writing (next ())) (.empty s.cache.capacity) s.changes
      s.computed) := by
  have guarded : Guarded (.ask .clearCache next) := by
    have sound := kept.calls call
    rw [phase] at sound
    exact sound
  refine kept.after (fun change member => .inl member) (fun found member => member)
    (fun _ _ _ => trivial) (fun _ _ impossible => by cases impossible) (guarded ()).1 ?_
    (fun _ _ _ impossible => by cases impossible)
  intro key entry member
  cases member

theorem Kept.put {results : List SearchResult} {ttlMs now : Int64}
    (phase : s.calls call = .computing question startedAt reads (.done (.ok results)))
    (meets : Meets ttlMs s (.put call now)) :
    Kept asked (s.after call (.returned question startedAt ⟨question, results, reads⟩)
      (s.cache.put (cacheKey question) ⟨⟨question, results, reads⟩, now⟩) s.changes
      (⟨question, results, reads⟩ :: s.computed)) := by
  have holds := kept.calls call
  rw [phase] at holds
  obtain ⟨member, started, ordered⟩ := holds
  have idle : ∀ change ∈ s.changes, change.call = call → False := by
    intro change logged same
    have owned := kept.owned change logged
    rw [same, phase] at owned
    exact owned
  refine kept.after (fun change inside => .inl inside)
    (fun found inside => List.mem_cons_of_mem _ inside)
    (fun change logged same => (idle change logged same).elim)
    (fun _ _ impossible => by cases impossible) (Nat.lt_succ_of_lt started) ?_ ?_
  · intro key entry inside
    rcases Lru.mem_of_mem_put inside with same | old
    · cases same
      refine ⟨member, rfl, List.mem_cons_self, fun read reading =>
        Nat.lt_succ_of_lt (ordered read reading).2, fun read reading change logged later => ?_⟩
      change ((Function.update s.calls call _) change.call).Asking
      rw [Function.update_of_ne (idle change logged)]
      exact meets question startedAt reads results phase read reading change logged later
    · exact (kept.entries key entry old).after (fun change inside => .inl inside)
        (fun found inside => List.mem_cons_of_mem _ inside)
        (.inr fun _ _ change logged same => (idle change logged same).elim)
  · rintro _ _ _ ⟨⟩
    refine ⟨List.mem_cons_self, rfl, fun write result time finished earlier change logged owner
      read reading => ?_⟩
    have older := kept.written change logged result time (owner ▸ finished)
    have since := (ordered read reading).1
    omega

theorem Kept.finishWrite {result : IndexResult Unit}
    (phase : s.calls call = .writing (.done result)) :
    Kept asked (s.after call (.written result s.now) s.cache s.changes s.computed) := by
  refine kept.quiet (.inr fun change member same asking => ?_) (fun _ => trivial) ?_ trivial
    (fun key entry member => member) (fun _ _ _ impossible => by cases impossible)
  · rw [phase] at asking
    exact asking
  · rintro _ _ ⟨⟩
    rfl

theorem Kept.fail {error : IndexError}
    (phase : s.calls call = .computing question startedAt reads (.done (.error error))) :
    Kept asked (s.after call (.failed error) s.cache s.changes s.computed) := by
  refine kept.quiet (.inr fun change member same asking => ?_) (fun writes => ?_)
    (fun _ _ impossible => by cases impossible) trivial (fun key entry member => member)
    (fun _ _ _ impossible => by cases impossible)
  · rw [phase] at asking
    exact asking
  · rw [phase] at writes
    exact writes.elim

/-- **One step keeps the invariant**, when it meets the condition and the questions
asked are told apart. -/
theorem Kept.step (free : CollisionFree asked) {action : Action} {ttlMs : Int64} {next : State}
    (asks : ∀ call question now, action = .search call question now → question ∈ asked)
    (meets : Meets ttlMs s action) (stepped : step ttlMs s action = some next) :
    Kept asked next := by
  obtain ⟨after, acted, rfl⟩ := Option.map_eq_some_iff.mp stepped
  cases action with
  | write call write =>
    simp only [act] at acted
    split at acted <;> cases acted
    next idle => exact kept.write idle write
  | search call question now =>
    simp only [act] at acted
    split at acted <;> cases acted
    next idle => exact kept.search idle now (asks call question now rfl)
  | lookup call =>
    simp only [act] at acted
    split at acted <;> cases acted
    next question startedAt now phase => exact kept.lookup free phase meets
  | answer call request answer changed =>
    simp only [act] at acted
    split at acted
    next asked next phase =>
      split at acted
      next same =>
        subst same
        split at acted <;> cases acted
        next writes =>
          refine kept.answerWrite phase writes answer changed ?_
          intro key entry member read reading fails
          refine meets ?_ fails key entry member read reading
          rw [phase]
          trivial
      next => cases acted
    next question startedAt reads asked next phase =>
      split at acted <;> cases acted
      exact kept.answerSearch phase
    next => cases acted
  | clear call =>
    simp only [act] at acted
    split at acted <;> cases acted
    next next phase => exact kept.clear phase
  | put call now =>
    simp only [act] at acted
    split at acted <;> cases acted
    next question startedAt reads results phase => exact kept.put phase meets
  | finish call =>
    simp only [act] at acted
    split at acted <;> cases acted
    next result phase => exact kept.finishWrite phase
    next error phase => exact kept.fail phase

end Steps

/-! ## Runs -/

/-- The questions of the searches of a run. -/
def asked (actions : List Action) : Set Question :=
  fun question => ∃ call now, Action.search call question now ∈ actions

/-- Any hash will do where all searches have the same key. -/
abbrev plainHash : NameHash where
  finish := fun _ => 0
  charToLowercase := fun c => [c]

/-- The vector (1, 0). -/
abbrev firstVector : List Float32Bits := [⟨0x3F800000#32⟩, ⟨0#32⟩]

/-- The vector (0, 1). -/
abbrev secondVector : List Float32Bits := [⟨0#32⟩, ⟨0x3F800000#32⟩]

abbrev nearest (queryVector : List Float32Bits) : Question :=
  ⟨queryVector, "", 5, .vectorOnly, 0⟩

/-- A search that asks the vector store and is cached, and another one. -/
abbrev twoSearches (second : List Float32Bits) : List Action :=
  [.search 0 (nearest firstVector) 0, .lookup 0,
    .answer 0 (.vectorSearch firstVector 5) (.ok []) false, .put 0 0,
    .search 1 (nearest second) 0, .lookup 1]

theorem collisionFree_twoSearches (second : List Float32Bits) :
    @CollisionFree plainHash (asked (twoSearches second)) := by
  have bytes : ∀ question ∈ asked (twoSearches second),
      keyBytes question = keyBytes (nearest firstVector) := by
    rintro question ⟨call, now, member⟩
    simp only [twoSearches, List.mem_cons, List.not_mem_nil, Action.search.injEq, reduceCtorEq,
      false_or, or_false] at member
    rcases member with ⟨-, rfl, -⟩ | ⟨-, rfl, -⟩ <;> rfl
  exact fun question member other otherMember _ =>
    (bytes question member).trans (bytes other otherMember).symm

end OpenMemory.Index.SearchCache
