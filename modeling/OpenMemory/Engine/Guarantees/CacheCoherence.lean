import OpenMemory.Engine.RecallCache

/-!
# Coherence of the recall cache

Whatever a recall serves from the cache was cached for the same question, and
was computed after every change of every write that had returned before the
recall began. The first follows from the key, whose bytes determine the question.
The second rests on the write version: a write that has changed a store bumps it
before it returns. A write breaks that when a store fails after a change, since
it then returns the error and does not bump.
-/

namespace OpenMemory.Engine.RecallCache

open Foundation OpenMemory.Graph OpenMemory.Engine.Partition

/-! ## Equal keys -/

theorem selfDelimiting_hashMode : SelfDelimiting hashMode := by
  have length : ∀ mode, True → (hashMode mode).length = 8 := by
    intro mode _
    cases mode <;> rfl
  refine SelfDelimitingOn.of_fixed_length length ?_
  rintro (_ | _ | _) (_ | _ | _) _ _ same <;> first | rfl | exact absurd same (by decide)

variable {question : Question} {version domain time writeVersion startedAt : Nat}
  {request : Request} {changed : Bool} {changes : List Change} {writing : Writing}

section Key

variable [CaseMapping]

theorem normalizedNames_length_le (names : List String) :
    (normalizedNames names).length ≤ names.length := by
  rw [normalizedNames, length_ascending]
  exact (List.toFinset_card_le _).trans_eq (List.length_map _)

/-- The bytes of the names determine them up to order, repetition and case. -/
theorem hashNames_read {left right : Option (List String)} {xs ys : Bytes}
    (hl : ∀ names ∈ left, names.length < 2 ^ 64) (hr : ∀ names ∈ right, names.length < 2 ^ 64)
    (same : hashNames left ++ xs = hashNames right ++ ys) :
    left.map (fun names => (names.map CaseMapping.toLowercase).toFinset) =
      right.map (fun names => (names.map CaseMapping.toLowercase).toFinset) ∧ xs = ys := by
  cases left with
  | none =>
    cases right with
    | none => exact ⟨rfl, (List.cons.inj same).2⟩
    | some _ => exact absurd (List.cons.inj same).1 (by decide)
  | some left =>
    cases right with
    | none => exact absurd (List.cons.inj same).1 (by decide)
    | some right =>
      have fits : ∀ names : List String, names.length < 2 ^ 64 →
          (normalizedNames names).length < 2 ^ 64 ∧
            ∀ name ∈ normalizedNames names, True := fun names short =>
        ⟨(normalizedNames_length_le names).trans_lt short, fun _ _ => trivial⟩
      obtain ⟨names, rest⟩ := selfDelimiting_counted selfDelimiting_hashStr
        (fits left (hl left rfl)) (fits right (hr right rfl)) (List.cons.inj same).2
      exact ⟨congrArg some (ascending_injective names), rest⟩

/-- The bytes of a key determine every field of the question that affects its
answer. -/
theorem agrees_of_keyBytes {other : Question}
    (same : keyBytes question = keyBytes other) : question.Agrees other := by
  have sized : ∀ value : UInt64, value.toNat < 256 ^ 8 := fun value => value.toNat_lt
  simp only [keyBytes] at same
  obtain ⟨query, same⟩ := selfDelimiting_hashStr.read same
  obtain ⟨topK, same⟩ := selfDelimiting_leBytes 8 (sized _) (sized _) same
  have types : SelfDelimiting (fun type : EntityType => hashStr type.asStr) :=
    selfDelimiting_hashStr.comap _ (fun _ _ => trivial)
      fun _ _ _ _ equal => EntityType.asStr_injective equal
  obtain ⟨entityType, same⟩ := selfDelimiting_hashOption types (fun _ _ => trivial)
    (fun _ _ => trivial) same
  have times : SelfDelimiting (fun time : Int64 => leBytes 8 time.toUInt64.toNat) :=
    (selfDelimiting_leBytes 8).comap _ (fun time _ => sized time.toUInt64) fun _ _ _ _ equal => by
      simpa using congrArg UInt64.toInt64 (UInt64.toNat_inj.mp equal)
  obtain ⟨validAt, same⟩ := selfDelimiting_hashOption times (fun _ _ => trivial)
    (fun _ _ => trivial) same
  obtain ⟨source, same⟩ := selfDelimiting_hashOption selfDelimiting_hashStr (fun _ _ => trivial)
    (fun _ _ => trivial) same
  have patterns : SelfDelimiting (fun bits : Float32Bits => leBytes 4 bits.toBits.toNat) := by
    refine (selfDelimiting_leBytes 4).comap _ (fun bits _ => bits.toBits.isLt) ?_
    rintro ⟨left⟩ ⟨right⟩ _ _ equal
    exact congrArg Float32Bits.mk (BitVec.eq_of_toNat_eq equal)
  obtain ⟨minConfidence, same⟩ := selfDelimiting_hashOption patterns (fun _ _ => trivial)
    (fun _ _ => trivial) same
  obtain ⟨entityNames, same⟩ := hashNames_read question.namesFit other.namesFit same
  obtain ⟨mode, same⟩ := selfDelimiting_hashMode.read same
  have tiers : SelfDelimiting (fun tier : MemoryTier => hashStr tier.asStr) :=
    selfDelimiting_hashStr.comap _ (fun _ _ => trivial)
      fun _ _ _ _ equal => MemoryTier.asStr_injective equal
  obtain ⟨memoryTier, same⟩ := selfDelimiting_hashOption tiers (fun _ _ => trivial)
    (fun _ _ => trivial) same
  obtain ⟨spreadingActivation, same⟩ := selfDelimiting_hashBool.read same
  exact
    { query := query
      topK := UInt64.toNat_inj.mp topK
      entityType := entityType
      validAt := validAt
      source := source
      minConfidence := minConfidence
      entityNames := entityNames
      mode := mode
      memoryTier := memoryTier
      spreadingActivation := spreadingActivation
      recordAccess := selfDelimiting_hashBool.injective trivial trivial same }

end Key

/-! ## What is to hold -/

/-- Everything served from the cache answers the question asked, and was read
after all changes of the writes that had returned before. -/
def Coherent [CaseMapping] (s : State) : Prop :=
  ∀ call question startedAt entry, s.recalls call = .cached question startedAt entry →
    question.Agrees entry.question ∧
      ∀ write result time, s.writes write = .returned result time → time < startedAt →
        ∀ change ∈ s.changes, change.call = write → ∀ arm ∈ entry.arms, change.time < arm.readAt

/-- A store that fails has changed nothing, and the call has changed nothing
before. (A failed mirror is not handed on, and may have changed its store.) -/
def Unbroken (s : State) (action : Action) : Prop :=
  ∀ call request error, action = .reply call request (.error error) →
    ∀ program dirty changed, s.writes call = .running program dirty changed →
      dirty = false ∧ changed = false

/-! ## Writes bump before they return -/

/-- What the answer to a request makes of a call that was or was not dirty. -/
def Answered (dirty : Bool) : (effect : Effect) → effect.Answer → Bool → Prop
  | .store _ request, .ok answer, later =>
    later = true → dirty = true ∨
      (Request.writes request = true ∧ Request.denies request (.ok answer) = false)
  | .store _ _, .error _, later => later = false
  | .mirror _ _ _, _, _ => True
  | .bumpWriteVersion, _, later => later = false

/-- A method ends with its call as `wanted`, and clean after an error, whatever the
stores answer. -/
def Ends {α : Type} (wanted : Bool → α → Prop) (dirty : Bool) (method : Facade α) : Prop :=
  Calls.Leads Answered (fun later result => match result with
    | .ok value => wanted later value
    | .error _ => later = false) dirty method.run

/-- A method that returns has announced everything it changed. -/
def Announces {α : Type} (dirty : Bool) (method : Facade α) : Prop :=
  Ends (fun later _ => later = false) dirty method

/-- A method that may leave its call dirty when it returns. -/
def Dirties {α : Type} (dirty : Bool) (method : Facade α) : Prop :=
  Ends (fun _ _ => True) dirty method

section Rules

variable {α β : Type} {dirty : Bool} {wanted weaker : Bool → β → Prop}

theorem ends_pure {value : β} (holds : wanted dirty value) :
    Ends wanted dirty (pure value : Facade β) := holds

theorem ends_throw {error : MemoryError} (clean : dirty = false) :
    Ends wanted dirty (throw error : Facade β) := clean

variable {first : Facade α} {next : α → Facade β}

theorem ends_bind (leads : Ends (fun later value => Ends wanted later (next value)) dirty first) :
    Ends wanted dirty (first >>= next) := by
  refine Calls.leads_run_bind.mpr (Calls.Leads.mono ?_ leads)
  rintro later (error | value) holds
  · exact holds
  · exact holds

theorem ends_mono {method : Facade β} (implies : ∀ later value, wanted later value →
    weaker later value) (ends : Ends wanted dirty method) : Ends weaker dirty method := by
  refine Calls.Leads.mono ?_ ends
  rintro later (error | value) holds
  · exact holds
  · exact implies later value holds

/-- A method goes on after one that may leave its call dirty. -/
theorem ends_after (dirties : Dirties dirty first)
    (rest : ∀ later value, Ends wanted later (next value)) : Ends wanted dirty (first >>= next) :=
  ends_bind (ends_mono (fun later value _ => rest later value) dirties)

/-- A read leaves a clean call clean. -/
theorem announces_read
    (reads : Request.writes request = false) : Announces false (call domain request) := by
  rintro (error | answer) later admitted
  · exact admitted
  · cases later with
    | false => rfl
    | true =>
      rcases admitted rfl with was | ⟨writes, -⟩
      · exact absurd was (by decide)
      · exact absurd writes (by rw [reads]; decide)

/-- A write leaves its call as it was where the store denies a change. -/
theorem ends_write (domain : Nat) (request : Request) (dirty : Bool) :
    Ends (fun later answer => Request.denies request (.ok answer) = true →
      later = true → dirty = true) dirty (call domain request) := by
  rintro (error | answer) later admitted
  · exact admitted
  · intro denied dirtied
    rcases admitted dirtied with was | ⟨-, changes⟩
    · exact was
    · exact absurd changes (by rw [denied]; decide)

theorem dirties_call (domain : Nat) (request : Request) : Dirties dirty (call domain request) :=
  ends_mono (fun _ _ _ => trivial) (ends_write domain request dirty)

theorem dirties_mirror (domain : Nat) (batch : List RememberRequest) (opts : BatchOptions) :
    Dirties dirty (mirror domain batch opts) := fun _ _ _ => trivial

theorem announces_bump : Announces dirty bumpWriteVersion := by
  rintro ⟨⟩ later rfl
  rfl

/-- The end of most methods: the bump and the result. -/
theorem announces_bump_pure (value : β) :
    Announces dirty (bumpWriteVersion >>= fun _ => pure value) := by
  refine ends_bind (ends_mono ?_ announces_bump)
  rintro later - rfl
  exact ends_pure rfl

/-- A method goes on after one that announces what it does. -/
theorem ends_clean (announces : Announces dirty first)
    (rest : ∀ value, Ends wanted false (next value)) : Ends wanted dirty (first >>= next) := by
  refine ends_bind (ends_mono ?_ announces)
  rintro later value rfl
  exact rest value

end Rules

/-! ## The methods of the facade -/

section Methods

variable {dirty : Bool}

theorem announces_findEntityByIdIn (id : String) (domains : List Nat) :
    Announces false (findEntityByIdIn id domains) := by
  induction domains with
  | nil => exact ends_pure rfl
  | cons domain rest ih =>
    refine ends_clean (announces_read rfl) fun found => ?_
    cases found with
    | none => exact ih
    | some entity => exact ends_pure rfl

theorem dirties_commitMirrors (mirrors : List (Nat × List RememberRequest)) :
    Dirties dirty (commitMirrors mirrors) := by
  induction mirrors generalizing dirty with
  | nil => exact ends_pure trivial
  | cons entry rest ih => exact ends_after (dirties_mirror entry.1 entry.2 _) fun _ _ => ih

theorem announces_rememberBatch [NameHash] [CaseMapping] (stores domain : Nat)
    (requests : List RememberRequest) (opts : BatchOptions) (visit : Visit) :
    Announces dirty (rememberBatchInDomainWithOptions stores domain requests opts visit) := by
  unfold rememberBatchInDomainWithOptions
  split
  · exact ends_after (dirties_call _ _) fun _ _ => announces_bump_pure _
  · refine ends_after (dirties_commitMirrors _) fun _ _ => ?_
    exact ends_after (dirties_call _ _) fun _ _ => announces_bump_pure _

theorem announces_remember [NameHash] [CaseMapping] (stores : Nat) (request : RememberRequest)
    (visit : Visit) : Announces dirty (remember stores request visit) := by
  refine ends_clean (announces_rememberBatch _ _ _ _ _) fun outcomes => ?_
  split
  · exact ends_pure rfl
  · exact ends_throw rfl

theorem announces_addRelation [NameHash] [CaseMapping] (stores : Nat)
    (fromEntity toEntity relationType : String) (weight : Option Float32Bits) (source : String)
    (visit : Visit) :
    Announces false (addRelation stores fromEntity toEntity relationType weight source visit) := by
  unfold addRelation
  split
  · exact ends_after (dirties_call _ _) fun _ _ => announces_bump_pure _
  · refine ends_clean (announces_findEntityByIdIn _ _) fun origin => ?_
    split
    · exact ends_throw rfl
    · refine ends_clean (announces_findEntityByIdIn _ _) fun target => ?_
      split
      · exact ends_throw rfl
      · split
        · exact ends_after (dirties_call _ _) fun _ _ => announces_bump_pure _
        · refine ends_clean (announces_rememberBatch _ _ _ _ _) fun outcomes => ?_
          split
          · exact ends_pure rfl
          · exact ends_throw rfl

/-- Where a store denies a change, a clean call stays clean. -/
theorem announces_write {α : Type} {next : request.Answer → Facade α}
    (done : ∀ answer later, Announces later (next answer) ∨
      (Request.denies request (.ok answer) = true ∧ Announces false (next answer))) :
    Announces false (call domain request >>= next) := by
  refine ends_bind (ends_mono ?_ (ends_write domain request false))
  intro later answer stays
  rcases done answer later with announces | ⟨denied, announces⟩
  · exact announces
  · cases later with
    | false => exact announces
    | true => exact absurd (stays denied rfl) (by decide)

theorem announces_forgetIn (observationId : String) (domains : List Nat) :
    Announces false (forgetIn observationId domains) := by
  induction domains with
  | nil => exact ends_pure rfl
  | cons domain rest ih =>
    refine announces_write fun forgotten later => ?_
    cases forgotten with
    | true => exact .inl (announces_bump_pure true)
    | false => exact .inr ⟨rfl, ih⟩

theorem announces_setObservationMemoryTierIn (observationId : String) (tier : MemoryTier)
    (domains : List Nat) :
    Announces false (setObservationMemoryTierIn observationId tier domains) := by
  induction domains with
  | nil => exact ends_pure rfl
  | cons domain rest ih =>
    refine announces_write fun found later => ?_
    cases found with
    | true => exact .inl (announces_bump_pure true)
    | false => exact .inr ⟨rfl, ih⟩

theorem dirties_sweepCandidates (domain : Nat) (candidates : List Entity) :
    Dirties dirty (sweepCandidates domain candidates) := by
  induction candidates generalizing dirty with
  | nil => exact ends_pure trivial
  | cons candidate rest ih =>
    unfold sweepCandidates
    split
    · exact ends_after (dirties_call _ _) fun _ _ => ih
    · exact ih

theorem dirties_sweepStubs (home : Nat) (name : String) (domains : List Nat) :
    Dirties dirty (sweepStubs home name domains) := by
  induction domains generalizing dirty with
  | nil => exact ends_pure trivial
  | cons domain rest ih =>
    unfold sweepStubs
    split
    · exact ih
    · refine ends_after (dirties_call _ _) fun _ resolution => ?_
      exact ends_after (dirties_sweepCandidates _ _) fun _ _ => ih

theorem announces_retireEntityObservations [NameHash] (stores : Nat) (name : String) :
    Announces false (retireEntityObservations stores name) := by
  refine announces_write fun retired later => ?_
  cases retired with
  | zero => exact .inr ⟨rfl, ends_pure rfl⟩
  | succ n => exact .inl (announces_bump_pure _)

theorem dirties_consolidateIn (config : ConsolidateConfig) (total : ConsolidateReport)
    (domains : List Nat) : Dirties dirty (consolidateIn config total domains) := by
  induction domains generalizing dirty total with
  | nil => exact ends_pure trivial
  | cons domain rest ih => exact ends_after (dirties_call _ _) fun _ _ => ih _

theorem dirties_pruneIn (ttlSecs : Int64) (total : PruneReport) (domains : List Nat) :
    Dirties dirty (pruneIn ttlSecs total domains) := by
  induction domains generalizing dirty total with
  | nil => exact ends_pure trivial
  | cons domain rest ih => exact ends_after (dirties_call _ _) fun _ _ => ih _

/-- **Every facade write announces what it changed**, unless a store fails after
a change. -/
theorem announces_program [NameHash] [CaseMapping] (stores : Nat) (write : Write) :
    Announces false (write.program stores) := by
  cases write with
  | remember request visit =>
    exact ends_clean (announces_remember stores request visit) fun _ => ends_pure rfl
  | rememberBatch domain requests opts visit =>
    exact ends_clean (announces_rememberBatch stores domain requests opts visit)
      fun _ => ends_pure rfl
  | addRelation fromEntity toEntity relationType weight source visit =>
    exact ends_clean (announces_addRelation stores fromEntity toEntity relationType weight
      source visit) fun _ => ends_pure rfl
  | forget observationId =>
    exact ends_clean (announces_forgetIn observationId _) fun _ => ends_pure rfl
  | forgetEntity name =>
    refine ends_clean ?_ fun _ => ends_pure rfl
    refine ends_after (dirties_call _ _) fun _ _ => ?_
    exact ends_after (dirties_sweepStubs _ _ _) fun _ _ => announces_bump_pure _
  | forgetEntityById entityId =>
    refine ends_clean (ends_clean (announces_findEntityByIdIn entityId _) fun found => ?_)
      fun _ => ends_pure rfl
    cases found with
    | none => exact ends_throw rfl
    | some entity =>
      refine ends_after (dirties_call _ _) fun _ _ => ?_
      exact ends_after (dirties_sweepStubs _ _ _) fun _ _ => announces_bump_pure _
  | retireEntityObservations name =>
    exact ends_clean (announces_retireEntityObservations stores name) fun _ => ends_pure rfl
  | setObservationMemoryTier observationId tier =>
    exact ends_clean (announces_setObservationMemoryTierIn observationId tier _)
      fun _ => ends_pure rfl
  | consolidate config =>
    refine ends_clean ?_ fun _ => ends_pure rfl
    exact ends_after (dirties_consolidateIn _ _ _) fun _ _ => announces_bump_pure _
  | pruneWithTtl ttlSecs =>
    refine ends_clean ?_ fun _ => ends_pure rfl
    exact ends_after (dirties_pruneIn _ _ _) fun _ _ => announces_bump_pure _
  | indexInsert entry => exact ends_after (dirties_call _ _) fun _ _ => announces_bump
  | indexDelete uri =>
    refine ends_clean ?_ fun _ => ends_pure rfl
    exact ends_after (dirties_call _ _) fun _ _ => announces_bump_pure _

end Methods

/-! ## The invariant -/

/-- The write that made a change accounts for it: the change is older than the
write version, or the write still has to bump it. -/
def Writing.Accounts (writeVersion : Nat) (change : Change) : Writing → Prop
  | .idle => False
  | .running _ dirty changed => dirty = false → changed = false → change.version < writeVersion
  | .returned _ _ => change.version < writeVersion

/-- A program that changes a store is asking it to. -/
def AsksWrite (program : Calls Effect Effect.Answer (MemoryResult Unit)) : Prop :=
  match program with
  | .ask (.store _ request) _ => Request.writes request = true
  | .ask (.mirror _ _ _) _ => True
  | _ => False

/-- The program of a call bumps the write version before it ends. -/
structure OnItsWay (program : Calls Effect Effect.Answer (MemoryResult Unit))
    (dirty changed : Bool) : Prop where
  leads : Calls.Leads Answered (fun later _ => later = false) dirty program
  asks : changed = true → AsksWrite program

/-- A version was loaded at a time: what changed since then is not older. -/
structure LoadedAt (s : State) (version time : Nat) : Prop where
  past : time < s.now
  version_le : version ≤ s.writeVersion
  since : ∀ change ∈ s.changes, time ≤ change.time → version ≤ change.version

/-- A version is newer than all changes of the writes that had returned. -/
def Covers (s : State) (version time : Nat) : Prop :=
  ∀ write result returnedAt, s.writes write = .returned result returnedAt → returnedAt < time →
    ∀ change ∈ s.changes, change.call = write → change.version < version

/-- An entry stands under the key of its question, and was read after its version
was loaded. -/
structure Entered [NameHash] [CaseMapping] (s : State) (asked : Set Question) (key : UInt64)
    (entry : RecallCacheEntry) : Prop where
  asked : entry.question ∈ asked
  key_eq : key = recallCacheKey entry.question
  loaded : ∃ time, LoadedAt s entry.version time ∧ ∀ arm ∈ entry.arms, time ≤ arm.readAt

/-- What holds of a recall. -/
def Recalling.Sound (s : State) (asked : Set Question) : Recalling → Prop
  | .loaded question version startedAt =>
    question ∈ asked ∧ LoadedAt s version startedAt ∧ Covers s version startedAt
  | .gathering question version startedAt arms =>
    question ∈ asked ∧ LoadedAt s version startedAt ∧ Covers s version startedAt ∧
      ∀ domain arm, arms domain = some arm → startedAt ≤ arm.readAt
  | .cached _ startedAt _ => startedAt < s.now
  | _ => True

structure Sound [NameHash] [CaseMapping] (asked : Set Question) (s : State) : Prop where
  past : ∀ change ∈ s.changes, change.time < s.now ∧ change.version ≤ s.writeVersion
  accounts : ∀ change ∈ s.changes, (s.writes change.call).Accounts s.writeVersion change
  running : ∀ call program dirty changed, s.writes call = .running program dirty changed →
    OnItsWay program dirty changed
  recalls : ∀ call, (s.recalls call).Sound s asked
  cache : ∀ key entry, (key, entry) ∈ s.cache.entries → Entered s asked key entry
  coherent : Coherent s

section Steps

variable {asked : Set Question} {s : State}

/-- The state after a step of a call of a write. -/
def State.afterWrite (s : State) (call : Nat) (writing : Writing) (writeVersion : Nat)
    (changes : List Change) : State :=
  { s.setWrite call writing with
    writeVersion := writeVersion
    changes := changes
    now := s.now + 1 }

/-- The changes logged after a step of a call: what was logged before, and what
the call changes in this step. -/
def Logged (s : State) (call : Nat) (changes : List Change) : Prop :=
  ∀ change ∈ changes, change ∈ s.changes ∨
    (change.call = call ∧ change.time = s.now ∧ change.version = s.writeVersion)

theorem LoadedAt.afterWrite {call : Nat}
    (loaded : LoadedAt s version time) (grows : s.writeVersion ≤ writeVersion)
    (logged : Logged s call changes) :
    LoadedAt (s.afterWrite call writing writeVersion changes) version time where
  past := Nat.lt_succ_of_lt loaded.past
  version_le := loaded.version_le.trans grows
  since := by
    intro change member later
    rcases logged change member with before | ⟨-, -, version_eq⟩
    · exact loaded.since change before later
    · exact version_eq ▸ loaded.version_le

/-- What has returned by then has returned before, or just now. -/
theorem returned_of_afterWrite {call : Nat} {write returnedAt : Nat} {result : MemoryResult Unit}
    (late : ∀ r t, writing = .returned r t → t = s.now)
    (returned : (s.afterWrite call writing writeVersion changes).writes write =
      .returned result returnedAt) :
    s.writes write = .returned result returnedAt ∧ write ≠ call ∨ returnedAt = s.now := by
  by_cases same : write = call
  · subst same
    exact .inr (late _ _ (by simpa [State.afterWrite, State.setWrite] using returned))
  · exact .inl ⟨by simpa [State.afterWrite, State.setWrite, same] using returned, same⟩

theorem Covers.afterWrite {call : Nat} (covered : Covers s version time) (past : time < s.now)
    (late : ∀ r t, writing = .returned r t → t = s.now) (logged : Logged s call changes) :
    Covers (s.afterWrite call writing writeVersion changes) version time := by
  intro write result returnedAt returned earlier change member owner
  rcases returned_of_afterWrite late returned with ⟨was, other⟩ | now
  · rcases logged change member with before | ⟨self, -, -⟩
    · exact covered write result returnedAt was earlier change before owner
    · exact absurd (owner.symm.trans self) other
  · omega

theorem logged_self (call : Nat) : Logged s call s.changes := fun _ member => .inl member

theorem logged_log (call domain : Nat) : Logged s call (s.log call domain).changes := by
  intro change member
  rcases List.mem_cons.mp member with rfl | before
  · exact .inr ⟨rfl, rfl, rfl⟩
  · exact .inl before

/-- The answer of a store leaves a call on its way. -/
theorem OnItsWay.reply
    {next : MemoryResult request.Answer → Calls Effect Effect.Answer (MemoryResult Unit)}
    {dirty : Bool} (way : OnItsWay (.ask (.store domain request) next) dirty changed)
    (answer : MemoryResult request.Answer)
    (truthful : (changed && Request.denies request answer) = false)
    (unbroken : ∀ error, answer = .error error → dirty = false ∧ changed = false) :
    OnItsWay (next answer) (dirty || changed) false where
  leads := by
    refine way.leads.answer (i := Effect.store domain request) ?_
    cases answer with
    | error error =>
      obtain ⟨clean, still⟩ := unbroken error rfl
      change (dirty || changed) = false
      rw [clean, still]
      rfl
    | ok answer =>
      intro dirtied
      cases dirty with
      | true => exact .inl rfl
      | false =>
        cases changed with
        | false => cases dirtied
        | true => exact .inr ⟨way.asks rfl, truthful⟩
  asks := by rintro ⟨⟩

theorem mem_of_mapM {arms : Nat → Option Arm} {domains : List Nat} {gathered : List Arm}
    (all : domains.mapM arms = some gathered) {arm : Arm} (member : arm ∈ gathered) :
    ∃ domain, arms domain = some arm := by
  induction domains generalizing gathered with
  | nil =>
    cases all
    cases member
  | cons domain rest ih =>
    simp only [List.mapM_cons, Option.pure_def, Option.bind_eq_bind, Option.bind_eq_some_iff,
      Option.some.injEq] at all
    obtain ⟨first, found, others, later, rfl⟩ := all
    rcases List.mem_cons.mp member with rfl | later_mem
    · exact ⟨domain, found⟩
    · exact ih later later_mem

end Steps

section Invariant

variable [NameHash] [CaseMapping] {asked : Set Question} {s : State}

theorem sound_fresh : Sound asked State.fresh where
  past := by rintro change ⟨⟩
  accounts := by rintro change ⟨⟩
  running := by rintro call program dirty changed ⟨⟩
  recalls := fun _ => trivial
  cache := by rintro key entry ⟨⟩
  coherent := by rintro call question startedAt entry ⟨⟩

variable (sound : Sound asked s)

include sound

theorem Sound.startedAt_lt {call : Nat}
    {entry : RecallCacheEntry} (phase : s.recalls call = .cached question startedAt entry) :
    startedAt < s.now := by
  have holds := sound.recalls call
  rw [phase] at holds
  exact holds

/-- A step of a write keeps the invariant when the write stays on its way and
accounts for its changes. -/
theorem Sound.afterWrite {call : Nat} (grows : s.writeVersion ≤ writeVersion) (logged : Logged s call changes)
    (running : ∀ program dirty changed, writing = .running program dirty changed →
      OnItsWay program dirty changed)
    (accounts : ∀ change ∈ changes, change.call = call → writing.Accounts writeVersion change)
    (late : ∀ result time, writing = .returned result time → time = s.now) :
    Sound asked (s.afterWrite call writing writeVersion changes) where
  past := by
    intro change member
    rcases logged change member with before | ⟨-, time, version⟩
    · obtain ⟨earlier, older⟩ := sound.past change before
      exact ⟨Nat.lt_succ_of_lt earlier, older.trans grows⟩
    · exact ⟨time ▸ Nat.lt_succ_self _, version ▸ grows⟩
  accounts := by
    intro change member
    by_cases same : change.call = call
    · rw [State.afterWrite, State.setWrite, same]
      simp only [Function.update_self]
      exact accounts change member same
    · simp only [State.afterWrite, State.setWrite, ne_eq, same, not_false_eq_true,
        Function.update_of_ne]
      have before := sound.accounts change
        ((logged change member).resolve_right fun self => same self.1)
      cases phase : s.writes change.call with
      | idle =>
        rw [phase] at before
        exact before
      | running program dirty changed =>
        rw [phase] at before
        exact fun clean still => (before clean still).trans_le grows
      | returned result time =>
        rw [phase] at before
        exact Nat.lt_of_lt_of_le before grows
  running := by
    intro other program dirty changed phase
    by_cases same : other = call
    · subst same
      exact running program dirty changed (by simpa [State.afterWrite, State.setWrite] using phase)
    · exact sound.running other program dirty changed
        (by simpa [State.afterWrite, State.setWrite, same] using phase)
  recalls := by
    intro other
    have before := sound.recalls other
    change Recalling.Sound _ asked (s.recalls other)
    cases phase : s.recalls other with
    | idle => trivial
    | loaded question version startedAt =>
      rw [phase] at before
      obtain ⟨member, loaded, covered⟩ := before
      exact ⟨member, loaded.afterWrite grows logged, covered.afterWrite loaded.past late logged⟩
    | gathering question version startedAt arms =>
      rw [phase] at before
      obtain ⟨member, loaded, covered, reads⟩ := before
      exact ⟨member, loaded.afterWrite grows logged,
        covered.afterWrite loaded.past late logged, reads⟩
    | computed result => trivial
    | cached question startedAt entry => exact Nat.lt_succ_of_lt (sound.startedAt_lt phase)
  cache := by
    intro key entry member
    obtain ⟨question, key_eq, time, loaded, reads⟩ := sound.cache key entry member
    exact ⟨question, key_eq, time, loaded.afterWrite grows logged, reads⟩
  coherent := by
    intro other question startedAt entry phase
    obtain ⟨agrees, after⟩ := sound.coherent other question startedAt entry phase
    refine ⟨agrees, fun write result returnedAt returned earlier change member owner => ?_⟩
    have began : startedAt < s.now := sound.startedAt_lt phase
    rcases returned_of_afterWrite late returned with ⟨was, different⟩ | now
    · rcases logged change member with before | ⟨self, -, -⟩
      · exact after write result returnedAt was earlier change before owner
      · exact absurd (owner.symm.trans self) different
    · omega

/-- The state after a step of a recall, or of the clock. -/
def State.afterRecall (s : State) (recalls : Nat → Recalling)
    (cache : Lru UInt64 RecallCacheEntry) (clock : Nat) : State :=
  { s with recalls := recalls, cache := cache, clock := clock, now := s.now + 1 }

omit sound in
omit [NameHash] [CaseMapping] in
theorem LoadedAt.afterRecall {clock : Nat} {recalls : Nat → Recalling}
    {cache : Lru UInt64 RecallCacheEntry} (loaded : LoadedAt s version time) :
    LoadedAt (s.afterRecall recalls cache clock) version time where
  past := Nat.lt_succ_of_lt loaded.past
  version_le := loaded.version_le
  since := loaded.since

/-- A step of a recall keeps the invariant when the recall that steps is sound
and coherent, and so are the entries it leaves. -/
theorem Sound.afterRecall (recalls : Nat → Recalling)
    {cache : Lru UInt64 RecallCacheEntry} {clock : Nat}
    (steps : ∀ call, recalls call = s.recalls call ∨
      ((recalls call).Sound (s.afterRecall recalls cache clock) asked ∧
        ∀ question startedAt entry, recalls call = .cached question startedAt entry →
          question.Agrees entry.question ∧ ∀ write result time,
            s.writes write = .returned result time → time < startedAt →
              ∀ change ∈ s.changes, change.call = write →
                ∀ arm ∈ entry.arms, change.time < arm.readAt))
    (entries : ∀ key entry, (key, entry) ∈ cache.entries →
      Entered s asked key entry ∨ Entered (s.afterRecall recalls cache clock) asked key entry) :
    Sound asked (s.afterRecall recalls cache clock) where
  past := fun change member =>
    ⟨Nat.lt_succ_of_lt (sound.past change member).1, (sound.past change member).2⟩
  accounts := sound.accounts
  running := sound.running
  recalls := by
    intro call
    rcases steps call with same | ⟨holds, -⟩
    · change (recalls call).Sound _ asked
      rw [same]
      have before := sound.recalls call
      cases phase : s.recalls call with
      | idle => trivial
      | loaded question version startedAt =>
        rw [phase] at before
        obtain ⟨member, loaded, covered⟩ := before
        exact ⟨member, loaded.afterRecall, covered⟩
      | gathering question version startedAt arms =>
        rw [phase] at before
        obtain ⟨member, loaded, covered, reads⟩ := before
        exact ⟨member, loaded.afterRecall, covered, reads⟩
      | computed result => trivial
      | cached question startedAt entry => exact Nat.lt_succ_of_lt (sound.startedAt_lt phase)
    · exact holds
  cache := by
    intro key entry member
    rcases entries key entry member with ⟨question, key_eq, time, loaded, reads⟩ | entered
    · exact ⟨question, key_eq, time, loaded.afterRecall, reads⟩
    · exact entered
  coherent := by
    intro call question startedAt entry phase
    rcases steps call with same | ⟨-, coherent⟩
    · exact sound.coherent call question startedAt entry (same ▸ phase)
    · exact coherent question startedAt entry phase

omit sound in
/-- The fact behind coherence: an entry of the version that a recall loaded was
read after every change that this version covers. -/
theorem Entered.readAfter {key : UInt64} {entry : RecallCacheEntry}
    (entered : Entered s asked key entry) (covered : Covers s entry.version startedAt)
    {write : Nat} {result : MemoryResult Unit}
    (returned : s.writes write = .returned result time) (earlier : time < startedAt)
    {change : Change} (member : change ∈ s.changes) (owner : change.call = write) {arm : Arm}
    (gathered : arm ∈ entry.arms) : change.time < arm.readAt := by
  obtain ⟨loadedAt, loaded, reads⟩ := entered.loaded
  have older := covered write result time returned earlier change member owner
  by_contra late
  have since := loaded.since change member ((reads arm gathered).trans (Nat.le_of_not_lt late))
  omega

/-! ## Steps keep it -/

/-- The hash tells the questions asked apart where their bytes differ. -/
def CollisionFree (asked : Set Question) : Prop :=
  ∀ question ∈ asked, ∀ other ∈ asked, recallCacheKey question = recallCacheKey other →
    keyBytes question = keyBytes other

/-- A write that is asking a store changes it. -/
theorem Sound.change {call : Nat} {program : Calls Effect Effect.Answer (MemoryResult Unit)} {dirty : Bool}
    (phase : s.writes call = .running program dirty changed) (asks : AsksWrite program) :
    Sound asked (s.afterWrite call (.running program dirty true) s.writeVersion
      (s.log call domain).changes) := by
  have way := sound.running call program dirty changed phase
  refine sound.afterWrite le_rfl (logged_log call domain) ?_ ?_ (by rintro _ _ ⟨⟩)
  · rintro _ _ _ ⟨⟩
    exact ⟨way.leads, fun _ => asks⟩
  · intro change member owner _ still
    cases still

/-- A write that is answered goes on. -/
theorem Sound.goOn {call : Nat} {program next : Calls Effect Effect.Answer (MemoryResult Unit)} {dirty : Bool}
    (phase : s.writes call = .running program dirty changed)
    (way : OnItsWay next (dirty || changed) false) :
    Sound asked (s.afterWrite call (.running next (dirty || changed) false) s.writeVersion
      s.changes) := by
  refine sound.afterWrite le_rfl (logged_self call) ?_ ?_ (by rintro _ _ ⟨⟩)
  · rintro _ _ _ ⟨⟩
    exact way
  · intro change member owner clean _
    have accounts := sound.accounts change member
    rw [owner, phase] at accounts
    obtain ⟨was, still⟩ := Bool.or_eq_false_iff.mp clean
    exact accounts was still

/-- A step of one recall, which leaves the cache as it is. -/
theorem Sound.recallStep (call : Nat) {recalling : Recalling}
    (holds : ∀ recalls, recalling.Sound (s.afterRecall recalls s.cache s.clock) asked)
    (computes : ∀ question startedAt entry, recalling ≠ .cached question startedAt entry) :
    Sound asked { s.setRecall call recalling with now := s.now + 1 } := by
  refine sound.afterRecall (Function.update s.recalls call recalling) ?_
    fun key entry member => .inl (sound.cache key entry member)
  intro other
  by_cases same : other = call
  · subst same
    rw [Function.update_self]
    exact .inr ⟨holds _, fun question startedAt entry phase =>
      absurd phase (computes question startedAt entry)⟩
  · rw [Function.update_of_ne same]
    exact .inl rfl

theorem Sound.lookup {call : Nat} (free : CollisionFree asked) {ttl : Nat}
    (phase : s.recalls call = .loaded question version startedAt) :
    Sound asked { lookup ttl s call question version startedAt with now := s.now + 1 } := by
  have holds := sound.recalls call
  rw [phase] at holds
  obtain ⟨member, loaded, covered⟩ := holds
  -- all three outcomes update this recall and leave only entries of the cache
  have update : ∀ (recalling : Recalling) (cache : Lru UInt64 RecallCacheEntry),
      (∀ key entry, (key, entry) ∈ cache.entries → (key, entry) ∈ s.cache.entries) →
      (∀ recalls, recalling.Sound (s.afterRecall recalls cache s.clock) asked) →
      (∀ question startedAt entry, recalling = .cached question startedAt entry →
        question.Agrees entry.question ∧ Entered s asked (recallCacheKey question) entry ∧
          Covers s entry.version startedAt) →
      Sound asked { s.setRecall call recalling with cache := cache, now := s.now + 1 } := by
    intro recalling cache kept recallSound served
    refine sound.afterRecall (Function.update s.recalls call recalling) ?_
      fun key entry inside => .inl (sound.cache key entry (kept key entry inside))
    intro other
    by_cases same : other = call
    · subst same
      rw [Function.update_self]
      refine .inr ⟨recallSound _, fun question startedAt entry serves => ?_⟩
      obtain ⟨agrees, entered, covers⟩ := served question startedAt entry serves
      exact ⟨agrees, fun write result time returned earlier change inside owner arm gathered =>
        entered.readAfter covers returned earlier inside owner gathered⟩
    · rw [Function.update_of_ne same]
      exact .inl rfl
  have gathers : ∀ cache : Lru UInt64 RecallCacheEntry,
      (∀ key entry, (key, entry) ∈ cache.entries → (key, entry) ∈ s.cache.entries) →
      Sound asked { s.setRecall call (.gathering question version startedAt fun _ => none) with
        cache := cache, now := s.now + 1 } := by
    intro cache kept
    refine update _ cache kept (fun recalls => ⟨member, loaded.afterRecall, covered, ?_⟩) ?_
    · rintro _ _ ⟨⟩
    · rintro _ _ _ ⟨⟩
  unfold RecallCache.lookup
  dsimp only
  split
  next entry used found =>
    have used_eq : used = (s.cache.get (recallCacheKey question)).2 := by rw [found]
    have entry_mem : (recallCacheKey question, entry) ∈ s.cache.entries :=
      Lru.mem_of_get (by rw [found])
    have kept : ∀ key entry, (key, entry) ∈ used.entries → (key, entry) ∈ s.cache.entries := by
      intro key other inside
      rw [used_eq] at inside
      exact Lru.mem_of_mem_get inside
    split
    next servable =>
      refine update _ used kept (fun recalls => ?_) ?_
      · exact Nat.lt_succ_of_lt loaded.past
      · rintro _ _ _ ⟨⟩
        have entered := sound.cache _ entry entry_mem
        have version_eq : entry.version = version := by
          unfold RecallCache.servable at servable
          simp only [Bool.and_eq_true, decide_eq_true_eq] at servable
          exact servable.1
        refine ⟨agrees_of_keyBytes ?_, entered, version_eq ▸ covered⟩
        exact free question member entry.question entered.asked entered.key_eq
    next =>
      exact gathers _ fun key entry inside => kept key entry (Lru.mem_of_mem_pop inside)
  next unused found =>
    refine gathers unused fun key entry inside => ?_
    have unused_eq : unused = (s.cache.get (recallCacheKey question)).2 := by rw [found]
    rw [unused_eq] at inside
    exact Lru.mem_of_mem_get inside

theorem Sound.finishRecall {call : Nat} {arms : Nat → Option Arm} {domains : List Nat} {gathered : List Arm}
    (phase : s.recalls call = .gathering question version startedAt arms)
    (all : domains.mapM arms = some gathered) :
    Sound asked { finishRecall s call question version gathered with now := s.now + 1 } := by
  have holds := sound.recalls call
  rw [phase] at holds
  obtain ⟨member, loaded, -, reads⟩ := holds
  unfold RecallCache.finishRecall
  split
  next error _ =>
    exact sound.recallStep call (fun _ => trivial) (by rintro _ _ _ ⟨⟩)
  next results _ =>
    refine sound.afterRecall (Function.update s.recalls call (.computed (.ok results))) ?_ ?_
    · intro other
      by_cases same : other = call
      · subst same
        rw [Function.update_self]
        exact .inr ⟨trivial, by rintro _ _ _ ⟨⟩⟩
      · rw [Function.update_of_ne same]
        exact .inl rfl
    · intro key entry inside
      rcases Lru.mem_of_mem_put inside with new | before
      · obtain ⟨rfl, rfl⟩ := Prod.mk.inj new
        refine .inr ⟨member, rfl, startedAt, loaded.afterRecall, fun arm gathers => ?_⟩
        obtain ⟨domain, found⟩ := mem_of_mapM all gathers
        exact reads domain arm found
      · exact .inl (sound.cache key entry before)

/-- **One step keeps the invariant**, when the questions asked are told apart and
no store fails after a change. -/
theorem sound_step {stores ttl : Nat} {action : Action} {next : State} (free : CollisionFree asked)
    (asks : ∀ call question, action = .startRecall call question → question ∈ asked)
    (unbroken : Unbroken s action) (stepped : step stores ttl s action = some next) :
    Sound asked next := by
  obtain ⟨after, acted, rfl⟩ := Option.map_eq_some_iff.mp stepped
  cases action with
  | write call write =>
    simp only [act] at acted
    split at acted <;> cases acted
    next phase =>
      refine sound.afterWrite le_rfl (logged_self call) ?_ ?_ (by rintro _ _ ⟨⟩)
      · rintro _ _ _ ⟨⟩
        refine ⟨Calls.Leads.mono ?_ (announces_program stores write), by rintro ⟨⟩⟩
        rintro later (error | value) clean
        · exact clean
        · exact clean
      · intro change member owner
        have accounts := sound.accounts change member
        rw [owner, phase] at accounts
        exact accounts.elim
  | change call =>
    simp only [act] at acted
    split at acted
    next domain request next dirty changed phase =>
      split at acted <;> cases acted
      next writes => exact sound.change phase writes
    next domain batch opts next dirty changed phase =>
      cases acted
      exact sound.change phase trivial
    next => cases acted
  | reply call request answer =>
    simp only [act] at acted
    split at acted
    next domain asked next dirty changed phase =>
      split at acted
      next same =>
        subst same
        split at acted
        next => cases acted
        next truthful =>
          cases acted
          have way := sound.running call _ _ _ phase
          refine sound.goOn phase (way.reply answer (by simpa using truthful) ?_)
          rintro error rfl
          exact unbroken call request error rfl _ _ _ phase
      next => cases acted
    next => cases acted
  | mirrorReply call answer =>
    simp only [act] at acted
    split at acted <;> cases acted
    next domain batch opts next dirty changed phase =>
      have way := sound.running call _ _ _ phase
      exact sound.goOn phase ⟨way.leads.answer (i := Effect.mirror domain batch opts) trivial,
        by rintro ⟨⟩⟩
  | bump call =>
    simp only [act] at acted
    split at acted <;> cases acted
    next next dirty changed phase =>
      have way := sound.running call _ _ _ phase
      refine sound.afterWrite (Nat.le_succ _) (logged_self call) ?_ ?_ (by rintro _ _ ⟨⟩)
      · rintro _ _ _ ⟨⟩
        exact ⟨way.leads.answer (i := Effect.bumpWriteVersion) rfl, by rintro ⟨⟩⟩
      · intro change member _ _ _
        exact Nat.lt_succ_of_le (sound.past change member).2
  | finishWrite call =>
    simp only [act] at acted
    split at acted <;> cases acted
    next result dirty changed phase =>
      have way := sound.running call _ _ _ phase
      refine sound.afterWrite le_rfl (logged_self call) (by rintro _ _ _ ⟨⟩) ?_ ?_
      · intro change member owner
        have accounts := sound.accounts change member
        rw [owner, phase] at accounts
        refine accounts way.leads ?_
        cases changed with
        | false => rfl
        | true => exact (way.asks rfl).elim
      · rintro _ _ ⟨⟩
        rfl
  | startRecall call question =>
    simp only [act] at acted
    split at acted <;> cases acted
    next phase =>
      refine sound.recallStep call (fun recalls => ⟨asks call question rfl, ?_, ?_⟩)
        (by rintro _ _ _ ⟨⟩)
      · refine ⟨Nat.lt_succ_self _, le_rfl, fun change member later => ?_⟩
        exact absurd later (Nat.not_le.mpr (sound.past change member).1)
      · intro write result time returned _ change member owner
        have accounts := sound.accounts change member
        change s.writes write = _ at returned
        rw [owner, returned] at accounts
        exact accounts
  | lookup call =>
    simp only [act] at acted
    split at acted <;> cases acted
    next question version startedAt phase => exact sound.lookup free phase
  | arm call domain reply =>
    simp only [act] at acted
    split at acted
    next question version startedAt arms phase =>
      split at acted <;> cases acted
      have holds := sound.recalls call
      rw [phase] at holds
      obtain ⟨member, loaded, covered, reads⟩ := holds
      refine sound.recallStep call (fun recalls => ⟨member, loaded.afterRecall, covered, ?_⟩)
        (by rintro _ _ _ ⟨⟩)
      intro other arm found
      by_cases same : other = domain
      · subst same
        rw [Function.update_self] at found
        cases found
        exact loaded.past.le
      · rw [Function.update_of_ne same] at found
        exact reads other arm found
    next => cases acted
  | finishRecall call =>
    simp only [act] at acted
    split at acted
    next question version startedAt arms phase =>
      split at acted <;> cases acted
      next gathered all => exact sound.finishRecall phase all
    next => cases acted
  | tick =>
    cases acted
    exact sound.afterRecall _ (fun call => .inl rfl) fun key entry member =>
      .inl (sound.cache key entry member)

end Invariant

/-- The questions of the recalls of a run. -/
def asked (actions : List Action) : Set Question :=
  fun question => ∃ call, Action.startRecall call question ∈ actions

/-- **Coherence of the recall cache.** In every run of facade writes and recalls in
which no store fails after a change, what a recall serves from the cache answers
its question, and was read after all changes of the writes that had returned. -/
theorem cache_coherent [NameHash] [CaseMapping] {stores ttl : Nat} {actions : List Action}
    {s : State} (free : CollisionFree (asked actions))
    (met : Throughout (step stores ttl) Unbroken State.fresh actions)
    (run : runs (step stores ttl) State.fresh actions = some s) : Coherent s := by
  have both : Throughout (step stores ttl) (fun s action => Unbroken s action ∧
      ∀ call question, action = .startRecall call question → question ∈ asked actions)
      State.fresh actions := by
    rw [throughout_iff] at met ⊢
    intro before action after middle split passed
    refine ⟨met before action after middle split passed, ?_⟩
    rintro call question rfl
    exact ⟨call, split ▸ List.mem_append_right _ List.mem_cons_self⟩
  have sound := invariant_of_throughout (motive := Sound (asked actions)) sound_fresh
    (fun s action next sound condition stepped =>
      sound_step sound free condition.2 condition.1 stepped) both run
  exact sound.coherent

/-! ## Runs on two domains -/

/-- Any hash and any case mapping will do. -/
abbrev plainHash : NameHash where
  finish := fun _ => 0
  charToLowercase := fun c => [c]

abbrev plainCase : CaseMapping where
  toLowercase := fun value => value

def sampleQuestion : Question where
  query := "cached recall"
  topK := 5
  filters := .new
  namesFit := by rintro names ⟨⟩

/-- A recall fills the cache, and is asked again after a prune that succeeds. -/
def freshRun : List Action :=
  [.startRecall 0 sampleQuestion, .lookup 0, .arm 0 0 (.ok []), .arm 0 1 (.ok []),
    .finishRecall 0, .write 0 (.pruneWithTtl 0), .change 0,
    .reply 0 (.pruneWithTtl 0) (.ok ⟨1, 0⟩), .reply 0 (.pruneWithTtl 0) (.ok ⟨0, 0⟩), .bump 0,
    .finishWrite 0, .startRecall 1 sampleQuestion, .lookup 1]

/-- A recall fills the cache. A prune then sweeps the first domain, and the second
one fails. The next recall begins after the prune has returned its error. -/
def staleRun : List Action :=
  [.startRecall 0 sampleQuestion, .lookup 0, .arm 0 0 (.ok []), .arm 0 1 (.ok []),
    .finishRecall 0, .write 0 (.pruneWithTtl 0), .change 0,
    .reply 0 (.pruneWithTtl 0) (.ok ⟨1, 0⟩),
    .reply 0 (.pruneWithTtl 0) (.error (.sqlite "disk I/O error")), .finishWrite 0,
    .startRecall 1 sampleQuestion, .lookup 1]

theorem fresh_after_prune :
    ∃ s, @runs _ _ (@step plainHash plainCase 2 60) State.fresh freshRun = some s ∧
      @Coherent plainCase s := by
  refine ⟨_, rfl, @cache_coherent plainHash plainCase 2 60 freshRun _ ?_ ?_ rfl⟩
  · rintro question ⟨call, member⟩ other ⟨otherCall, otherMember⟩ -
    have questions : ∀ call question, Action.startRecall call question ∈ freshRun →
        question = sampleQuestion := by
      intro call question member
      simp only [freshRun, List.mem_cons, List.not_mem_nil, Action.startRecall.injEq, reduceCtorEq,
        false_or, or_false] at member
      rcases member with ⟨-, same⟩ | ⟨-, same⟩ <;> exact same
    rw [questions call question member, questions otherCall other otherMember]
  · rw [throughout_iff]
    rintro before action after middle split - call request error rfl
    have member : Action.reply call request (.error error) ∈ freshRun :=
      split ▸ List.mem_append_right _ List.mem_cons_self
    simp only [freshRun, List.mem_cons, List.not_mem_nil, Action.reply.injEq, reduceCtorEq,
      false_or, or_false] at member
    rcases member with ⟨-, rfl, same⟩ | ⟨-, rfl, same⟩ <;> cases eq_of_heq same

/-- The prune that failed half way leaves what it has swept in the cache. -/
theorem stale_after_failed_prune :
    ∃ s, @runs _ _ (@step plainHash plainCase 2 60) State.fresh staleRun = some s ∧
      ¬ @Coherent plainCase s := by
  refine ⟨_, rfl, fun coherent => ?_⟩
  have after := (coherent 1 sampleQuestion _ _ rfl).2 0 _ _ rfl (by decide) _ List.mem_cons_self
    rfl _ List.mem_cons_self
  exact absurd after (by decide)

end OpenMemory.Engine.RecallCache
