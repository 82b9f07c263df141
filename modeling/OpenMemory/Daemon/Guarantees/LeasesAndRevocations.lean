import OpenMemory.Daemon.Authorization
import OpenMemory.Merge.Fixture

/-!
# Leases and revocations

A revocation that has drained the leases runs its transaction alone, as long as no
lease passes the gate meanwhile; the gate lets one pass only when another revocation,
begun earlier or later, has opened it. A grant pairs its role with the authority of
one catalog, as long as no role is granted between the queries that read them.
-/

namespace OpenMemory.Daemon

open Foundation
open OpenMemory.Graph (AuthoritySnapshot)
open Merge (Blake3)

variable {failure : Option String} {lease : AuthorizationLease}

section Guarantee

variable [Blake3] {request : GrantRequest} {grant : SpaceGrant} {catalog later : Catalog}
  {reading answered : Reading}

/-! ## Grants -/

/-- The principal has the role and the authority of the grant in the catalog. -/
def SpaceGrant.HeldIn (grant : SpaceGrant) (request : GrantRequest) (catalog : Catalog) : Prop :=
  (roleFor request.principal request.space request.now).run.answeredBy catalog.answer =
      .ok (some grant.role) ∧
    (authoritySnapshotFor request.principal request.space request.now).run.answeredBy
      catalog.answer = .ok grant.authority

omit [Blake3] in
theorem present_eq_ok {α : Type} {value : Option α} {error : AuthorityError} {found : α}
    (read : (present value error).run.answeredBy catalog.answer = .ok found) :
    value = some found := by
  cases value with
  | none => cases read
  | some value =>
    cases read
    rfl

/-- A reading that nothing disturbs yields a grant of the catalog it reads. -/
theorem heldIn_of_read
    (read : (grantFor request).run.answeredBy catalog.answer = .ok grant) :
    grant.HeldIn request catalog := by
  unfold grantFor at read
  obtain ⟨found, role, read⟩ := Calls.answeredBy_run_bind.mp read
  obtain ⟨_, isPresent, read⟩ := Calls.answeredBy_run_bind.mp read
  obtain ⟨_, _, read⟩ := Calls.answeredBy_run_bind.mp read
  obtain ⟨_, authority, finished⟩ := Calls.answeredBy_run_bind.mp read
  cases finished
  rw [present_eq_ok isPresent] at role
  exact ⟨role, authority⟩

/-- If the rest of a reading yields a grant of the present catalog, then some catalog
so far yields it as a whole. -/
def Reading.Faithful (reading : Reading) (catalog : Catalog) (catalogs : List Catalog) : Prop :=
  ∀ grant, reading.rest.answeredBy catalog.answer = .ok grant →
    ∃ earlier ∈ catalogs, (grantFor reading.request).run.answeredBy earlier.answer = .ok grant

/-- A change of the catalog leaves the answers that the reading has got as they are,
or what the rest of the reading yields. -/
def Reading.Undisturbed (reading : Reading) (catalog later : Catalog) : Prop :=
  (grantFor reading.request).run.after later.answer reading.asked = reading.rest ∨
    ∀ grant, reading.rest.answeredBy later.answer = .ok grant →
      reading.rest.answeredBy catalog.answer = .ok grant

namespace Reading.Faithful

variable {catalogs : List Catalog}

theorem start (present : catalog ∈ catalogs) :
    (Reading.start request).Faithful catalog catalogs :=
  fun _ read => ⟨catalog, present, read⟩

theorem ask (faithful : reading.Faithful catalog catalogs)
    (asked : reading.next catalog failure = some answered) : answered.Faithful catalog catalogs := by
  unfold Reading.next at asked
  intro grant read
  split at asked
  next => cases asked
  next query following rest =>
    cases asked
    exact faithful grant (by rw [rest]; exact read)
  next =>
    cases asked
    cases read

theorem moveTo (faithful : reading.Faithful catalog catalogs)
    (undisturbed : reading.Undisturbed catalog later) :
    reading.Faithful later (later :: catalogs) := by
  intro grant read
  rcases undisturbed with same | same
  · refine ⟨later, List.mem_cons_self, ?_⟩
    rwa [← same, Calls.answeredBy_after] at read
  · obtain ⟨earlier, member, whole⟩ := faithful grant (same grant read)
    exact ⟨earlier, List.mem_cons_of_mem _ member, whole⟩

end Reading.Faithful

namespace AuthorizationService

variable {service following : AuthorizationService} {number : Nat} {action : Action}

/-! ## What is claimed -/

/-- Leases and revocations exclude each other, and grants are of one catalog. -/
structure Guarded (service : AuthorizationService) : Prop where
  /-- No lease is alive when the transaction of a revocation is due. -/
  exclusive : ∀ number revocation, service.revocations.get? number = some revocation →
    revocation.phase = .drained → ∀ lease, service.held.get? lease = none
  /-- When a revocation returns, every live lease passed the gate after it committed. -/
  revoked : ∀ number revocation count, service.revocations.get? number = some revocation →
    revocation.phase = .committed count → ∀ key lease, service.held.get? key = some lease →
      count ≤ lease.admission.committed
  /-- A lease from before the return of a revocation cannot be reauthorized. -/
  stale : ∀ key lease, service.held.get? key = some lease →
    lease.admission.returned < service.returned → ∀ action now,
      service.beginReauthorizing key lease action now = (service, .error .staleLease)
  /-- Every grant is of one catalog. -/
  paired : ∀ handed ∈ service.handed,
    ∃ catalog ∈ service.catalogs, handed.grant.HeldIn handed.request catalog

/-- No lease passes the gate between the drain of a revocation and its commit, no
granted role disturbs a reading under way, and the epochs are not used up. -/
def Meets (service : AuthorizationService) : Action → Prop
  | .beginLease _ => service.revoking = false →
      ∀ number revocation, service.revocations.get? number = some revocation →
        revocation.phase ≠ .drained
  | .grantTeamRole team principal role expiresAt now =>
    ∀ catalog, service.catalog.grantTeamRole team principal role expiresAt now = .ok catalog →
      (∀ number acquiring, service.acquiring.get? number = some acquiring →
        acquiring.reading.Undisturbed service.catalog catalog) ∧
      ∀ number reauthorizing, service.reauthorizing.get? number = some reauthorizing →
        reauthorizing.reading.Undisturbed service.catalog catalog
  | .finishRevocation _ => service.epoch < 2 ^ 64 - 1
  | _ => True

/-! ## What the steps preserve -/

structure Kept (service : AuthorizationService) : Prop where
  counted : service.activeLeases = service.acquiring.entries.length + service.held.entries.length
  fresh : ∀ number, service.serial ≤ number → service.acquiring.get? number = none ∧
    service.held.get? number = none ∧ service.reauthorizing.get? number = none ∧
      service.revocations.get? number = none
  borrowed : ∀ number reauthorizing, service.reauthorizing.get? number = some reauthorizing →
    ∃ lease, service.held.get? reauthorizing.lease = some lease
  drained : ∀ number revocation, service.revocations.get? number = some revocation →
    revocation.phase = .drained → service.activeLeases = 0
  current : service.catalog ∈ service.catalogs
  acquired : ∀ number acquiring, service.acquiring.get? number = some acquiring →
    acquiring.reading.Faithful service.catalog service.catalogs
  reread : ∀ number reauthorizing, service.reauthorizing.get? number = some reauthorizing →
    reauthorizing.reading.Faithful service.catalog service.catalogs
  paired : ∀ handed ∈ service.handed,
    ∃ catalog ∈ service.catalogs, handed.grant.HeldIn handed.request catalog
  epoch : service.epoch = service.returned
  admitted : ∀ number acquiring, service.acquiring.get? number = some acquiring →
    acquiring.admission.epoch = acquiring.admission.returned
  leased : ∀ number lease, service.held.get? number = some lease →
    lease.admission.epoch = lease.admission.returned
  committed : ∀ number revocation count, service.revocations.get? number = some revocation →
    revocation.phase = .committed count → count ≤ service.committed ∧
      (∀ key acquiring, service.acquiring.get? key = some acquiring →
        count ≤ acquiring.admission.committed) ∧
      ∀ key lease, service.held.get? key = some lease → count ≤ lease.admission.committed

namespace Kept

theorem new : Kept (new catalog) where
  counted := rfl
  fresh _ _ := ⟨rfl, rfl, rfl, rfl⟩
  borrowed number reauthorizing found := by cases found
  drained number revocation found := by cases found
  current := List.mem_cons_self
  acquired number acquiring found := by cases found
  reread number reauthorizing found := by cases found
  paired handed member := by cases member
  epoch := rfl
  admitted number acquiring found := by cases found
  leased number lease found := by cases found
  committed number revocation count found := by cases found

variable (kept : Kept service)

include kept

/-- Without active leases nothing reads a grant. -/
theorem quiet (idle : service.activeLeases = 0) :
    (∀ key, service.acquiring.get? key = none) ∧ (∀ key, service.held.get? key = none) ∧
      ∀ key, service.reauthorizing.get? key = none := by
  have counted := kept.counted
  have noLease : ∀ key, service.held.get? key = none :=
    fun key => Table.get?_of_length_eq_zero (by omega)
  refine ⟨fun key => Table.get?_of_length_eq_zero (by omega), noLease, fun key => ?_⟩
  cases found : service.reauthorizing.get? key with
  | none => rfl
  | some reauthorizing =>
    obtain ⟨lease, present⟩ := kept.borrowed key reauthorizing found
    rw [noLease] at present
    cases present

theorem guarded : Guarded service where
  exclusive number revocation found drained :=
    (kept.quiet (kept.drained number revocation found drained)).2.1
  revoked number revocation count found committed :=
    (kept.committed number revocation count found committed).2.2
  stale key lease found earlier action now := by
    unfold beginReauthorizing
    rw [if_pos]
    rw [kept.epoch, kept.leased key lease found]
    omega
  paired := kept.paired

/-! ### Leases -/

theorem beginLease (meets : Meets service (.beginLease request)) :
    Kept (service.beginLease request).1 := by
  unfold AuthorizationService.beginLease
  split
  next => exact kept
  next opened =>
    rw [Bool.not_eq_true] at opened
    obtain ⟨noAcquiring, noHeld, noReauthorizing, noRevocation⟩ :=
      kept.fresh service.serial le_rfl
    constructor
    · dsimp only
      rw [Table.length_put_of_fresh noAcquiring, kept.counted]
      omega
    · intro number above
      obtain ⟨first, second, third, fourth⟩ := kept.fresh number (by dsimp only at above; omega)
      refine ⟨?_, second, third, fourth⟩
      refine Table.get?_put.trans ?_
      rw [if_neg (by dsimp only at above; omega), first]
    · exact kept.borrowed
    · exact fun number revocation found drained =>
        absurd drained (meets opened number revocation found)
    · exact kept.current
    · intro number acquiring found
      dsimp only at found
      rcases Table.of_get?_put found with rfl | found
      · exact .start kept.current
      · exact kept.acquired number acquiring found
    · exact kept.reread
    · exact kept.paired
    · exact kept.epoch
    · intro number acquiring found
      dsimp only at found
      rcases Table.of_get?_put found with rfl | found
      · exact kept.epoch
      · exact kept.admitted number acquiring found
    · exact kept.leased
    · intro number revocation count found phase
      obtain ⟨bound, acquiring, held⟩ := kept.committed number revocation count found phase
      refine ⟨bound, fun key other found => ?_, held⟩
      dsimp only at found
      rcases Table.of_get?_put found with rfl | found
      · exact bound
      · exact acquiring key other found

theorem askLease {acquiring : Acquiring} (found : service.acquiring.get? number = some acquiring)
    (asked : acquiring.reading.next service.catalog failure = some answered) : Kept { service with
      acquiring := service.acquiring.put number { acquiring with reading := answered } } := by
  constructor
  · dsimp only
    rw [Table.length_put_of_present found, kept.counted]
  · intro key above
    obtain ⟨first, second, third, fourth⟩ := kept.fresh key above
    refine ⟨?_, second, third, fourth⟩
    refine Table.get?_put.trans ?_
    rw [if_neg, first]
    rintro rfl
    rw [first] at found
    cases found
  · exact kept.borrowed
  · exact kept.drained
  · exact kept.current
  · intro key other present
    rcases Table.of_get?_put present with rfl | present
    · exact (kept.acquired number acquiring found).ask asked
    · exact kept.acquired key other present
  · exact kept.reread
  · exact kept.paired
  · exact kept.epoch
  · intro key other present
    rcases Table.of_get?_put present with rfl | present
    · exact kept.admitted number acquiring found
    · exact kept.admitted key other present
  · exact kept.leased
  · intro key revocation count revoking phase
    obtain ⟨bound, acquired, held⟩ := kept.committed key revocation count revoking phase
    refine ⟨bound, fun other' other present => ?_, held⟩
    rcases Table.of_get?_put present with rfl | present
    · exact acquired number acquiring found
    · exact acquired other' other present

theorem finishLease {acquiring : Acquiring} {result : Except AuthorityError SpaceGrant}
    (found : service.acquiring.get? number = some acquiring)
    (rest : acquiring.reading.rest = .done result) :
    Kept (service.finishLease number acquiring result) := by
  have shorter := Table.length_erase found
  have erased : ∀ key, service.acquiring.get? key = none →
      (service.acquiring.erase number).get? key = none := by
    intro key missing
    rw [Table.get?_erase, missing, ite_self]
  have faithful := kept.acquired number acquiring found
  unfold Reading.Faithful at faithful
  rw [rest] at faithful
  unfold AuthorizationService.finishLease
  cases result with
  | error error =>
    refine ⟨?_, ?_, kept.borrowed, ?_, kept.current, ?_, kept.reread, kept.paired, kept.epoch,
      ?_, kept.leased, ?_⟩
    · unfold releaseLease
      dsimp only
      rw [kept.counted]
      omega
    · exact fun key above => ⟨erased key (kept.fresh key above).1, (kept.fresh key above).2⟩
    · intro key revocation revoking drained
      change service.activeLeases - 1 = 0
      rw [kept.drained key revocation revoking drained]
    · exact fun key other present => kept.acquired key other (Table.of_get?_erase present)
    · exact fun key other present => kept.admitted key other (Table.of_get?_erase present)
    · intro key revocation count revoking phase
      obtain ⟨bound, acquired, held⟩ := kept.committed key revocation count revoking phase
      exact ⟨bound, fun other' other present => acquired other' other (Table.of_get?_erase present),
        held⟩
  | ok grant =>
    have unused : service.held.get? service.serial = none :=
      (kept.fresh service.serial le_rfl).2.1
    refine ⟨?_, ?_, ?_, kept.drained, kept.current, ?_, kept.reread, ?_, kept.epoch, ?_, ?_, ?_⟩
    · dsimp only
      rw [Table.length_put_of_fresh unused, kept.counted]
      omega
    · intro key above
      have past : service.serial < key := above
      obtain ⟨first, second, third, fourth⟩ := kept.fresh key past.le
      refine ⟨erased key first, ?_, third, fourth⟩
      refine Table.get?_put.trans ?_
      rw [if_neg past.ne', second]
    · intro key reauthorizing reading
      obtain ⟨lease, held⟩ := kept.borrowed key reauthorizing reading
      refine ⟨lease, ?_⟩
      refine Table.get?_put.trans ?_
      rw [if_neg, held]
      rintro same
      rw [same, unused] at held
      cases held
    · exact fun key other present => kept.acquired key other (Table.of_get?_erase present)
    · intro handed member
      rcases List.mem_cons.mp member with rfl | member
      · obtain ⟨earlier, among, whole⟩ := faithful grant rfl
        exact ⟨earlier, among, heldIn_of_read whole⟩
      · exact kept.paired handed member
    · exact fun key other present => kept.admitted key other (Table.of_get?_erase present)
    · intro key lease present
      rcases Table.of_get?_put present with rfl | present
      · exact kept.admitted number acquiring found
      · exact kept.leased key lease present
    · intro key revocation count revoking phase
      obtain ⟨bound, acquired, held⟩ := kept.committed key revocation count revoking phase
      refine ⟨bound, fun other' other present => acquired other' other (Table.of_get?_erase present),
        fun other lease present => ?_⟩
      rcases Table.of_get?_put present with rfl | present
      · exact acquired number acquiring found
      · exact held other lease present

theorem dropLease (found : service.held.get? number = some lease)
    (free : service.reauthorizing.entries.all fun entry => entry.2.lease ≠ number) :
    Kept ({ service with held := service.held.erase number }.releaseLease) := by
  have shorter := Table.length_erase found
  refine ⟨?_, ?_, ?_, ?_, kept.current, kept.acquired, kept.reread, kept.paired, kept.epoch,
    kept.admitted, ?_, ?_⟩
  · unfold releaseLease
    dsimp only
    rw [kept.counted]
    omega
  · intro key above
    obtain ⟨first, second, third, fourth⟩ := kept.fresh key above
    refine ⟨first, ?_, third, fourth⟩
    refine Table.get?_erase.trans ?_
    rw [second, ite_self]
  · intro key reauthorizing reading
    obtain ⟨borrowed, held⟩ := kept.borrowed key reauthorizing reading
    have elsewhere := List.all_eq_true.mp free _ (Table.get?_eq_some_iff.mp reading)
    refine ⟨borrowed, Table.get?_erase.trans ?_⟩
    rw [if_neg (by simpa using elsewhere), held]
  · intro key revocation revoking drained
    change service.activeLeases - 1 = 0
    rw [kept.drained key revocation revoking drained]
  · exact fun key other present => kept.leased key other (Table.of_get?_erase present)
  · intro key revocation count revoking phase
    obtain ⟨bound, acquired, held⟩ := kept.committed key revocation count revoking phase
    exact ⟨bound, acquired, fun other lease present => held other lease (Table.of_get?_erase present)⟩

/-! ### Reading a grant again -/

/-- Only the readings of live leases change. -/
theorem of_reauthorizing {reauthorizing : Table Nat Reauthorizing} {serial : Nat}
    {handed : List Handed} (later : service.serial ≤ serial)
    (above : ∀ key, serial ≤ key → reauthorizing.get? key = none)
    (reread : ∀ key other, reauthorizing.get? key = some other →
      (∃ lease, service.held.get? other.lease = some lease) ∧
        other.reading.Faithful service.catalog service.catalogs) (paired : ∀ given ∈ handed,
      ∃ catalog ∈ service.catalogs, given.grant.HeldIn given.request catalog) :
    Kept { service with reauthorizing, serial, handed } := by
  refine ⟨kept.counted, fun key past => ?_, fun key other found => (reread key other found).1,
    kept.drained, kept.current, kept.acquired, fun key other found => (reread key other found).2,
    paired, kept.epoch, kept.admitted, kept.leased, kept.committed⟩
  obtain ⟨first, second, _, fourth⟩ := kept.fresh key (later.trans past)
  exact ⟨first, second, above key past, fourth⟩

theorem beginReauthorizing
    (found : service.held.get? number = some lease) (permitted : AuthorizedAction) (now : Int64) :
    Kept (service.beginReauthorizing number lease permitted now).1 := by
  unfold AuthorizationService.beginReauthorizing
  split
  next => exact kept
  next =>
    refine kept.of_reauthorizing (Nat.le_succ _) (fun key above => ?_) (fun key other present => ?_)
      kept.paired
    · rw [Table.get?_put, if_neg (by omega), (kept.fresh key (by omega)).2.2.1]
    · rcases Table.of_get?_put present with rfl | present
      · exact ⟨⟨lease, found⟩, .start kept.current⟩
      · exact ⟨kept.borrowed key other present, kept.reread key other present⟩

theorem askReauthorizing {reauthorizing : Reauthorizing}
    (found : service.reauthorizing.get? number = some reauthorizing)
    (asked : reauthorizing.reading.next service.catalog failure = some answered) :
    Kept { service with
      reauthorizing := service.reauthorizing.put number { reauthorizing with reading := answered } } := by
  refine kept.of_reauthorizing le_rfl (fun key above => ?_) (fun key other present => ?_)
    kept.paired
  · have missing := (kept.fresh key above).2.2.1
    rw [Table.get?_put, if_neg, missing]
    rintro rfl
    rw [missing] at found
    cases found
  · rcases Table.of_get?_put present with rfl | present
    · exact ⟨kept.borrowed number reauthorizing found,
        (kept.reread number reauthorizing found).ask asked⟩
    · exact ⟨kept.borrowed key other present, kept.reread key other present⟩

theorem finishReauthorizing {reauthorizing : Reauthorizing}
    {result : Except AuthorityError SpaceGrant}
    (found : service.reauthorizing.get? number = some reauthorizing)
    (rest : reauthorizing.reading.rest = .done result) :
    Kept (service.finishReauthorizing number reauthorizing lease result) := by
  have ended : ∀ handed : List Handed, (∀ given ∈ handed,
      ∃ catalog ∈ service.catalogs, given.grant.HeldIn given.request catalog) →
        Kept { service with
          reauthorizing := service.reauthorizing.erase number, handed } := by
    intro handed paired
    refine kept.of_reauthorizing le_rfl (fun key above => ?_) (fun key other present => ?_) paired
    · rw [Table.get?_erase, (kept.fresh key above).2.2.1, ite_self]
    · replace present := Table.of_get?_erase present
      exact ⟨kept.borrowed key other present, kept.reread key other present⟩
  unfold AuthorizationService.finishReauthorizing
  dsimp only
  split
  next => exact ended service.handed kept.paired
  next fresh =>
    split
    next => exact ended service.handed kept.paired
    next =>
      refine ended _ fun given member => ?_
      rcases List.mem_cons.mp member with rfl | member
      · have faithful := kept.reread number reauthorizing found
        unfold Reading.Faithful at faithful
        rw [rest] at faithful
        obtain ⟨earlier, among, whole⟩ := faithful fresh rfl
        exact ⟨earlier, among, heldIn_of_read whole⟩
      · exact kept.paired given member

/-! ### Revocations -/

/-- Only revocations, and the numbers they count, change. -/
theorem of_revocations {revocations : Table Nat Revocation} {serial committed : Nat}
    {revoking : Bool} (later : service.serial ≤ serial)
    (above : ∀ key, serial ≤ key → revocations.get? key = none)
    (phases : ∀ key revocation, revocations.get? key = some revocation →
      (revocation.phase = .drained → service.activeLeases = 0) ∧
        ∀ count, revocation.phase = .committed count → count ≤ committed ∧
          (∀ key acquiring, service.acquiring.get? key = some acquiring →
            count ≤ acquiring.admission.committed) ∧
          ∀ key lease, service.held.get? key = some lease → count ≤ lease.admission.committed) :
    Kept { service with revocations, serial, committed, revoking } := by
  refine ⟨kept.counted, fun key past => ?_, kept.borrowed, fun key other found =>
    (phases key other found).1, kept.current, kept.acquired, kept.reread, kept.paired, kept.epoch,
    kept.admitted, kept.leased, fun key other count found => (phases key other found).2 count⟩
  obtain ⟨first, second, third, _⟩ := kept.fresh key (later.trans past)
  exact ⟨first, second, third, above key past⟩

theorem beginRevocation (team principal : String) :
    Kept (service.beginRevocation team principal) := by
  refine kept.of_revocations (Nat.le_succ _) (fun key above => ?_) (fun key revocation found => ?_)
  · rw [Table.get?_put, if_neg (by omega), (kept.fresh key (by omega)).2.2.2]
  · rw [Table.get?_put] at found
    split at found
    next =>
      cases found
      dsimp only
      split
      next idle =>
        refine ⟨fun _ => idle, fun count phase => ?_⟩
        cases phase
      next =>
        refine ⟨fun phase => ?_, fun count phase => ?_⟩ <;> cases phase
    next =>
      exact ⟨kept.drained key revocation found, fun count =>
        kept.committed key revocation count found⟩

/-- A revocation goes on, while no lease is active. -/
theorem setPhase {revocation : Revocation} {phase : RevocationPhase} {committed : Nat}
    (idle : service.activeLeases = 0) (found : service.revocations.get? number = some revocation)
    (counts : service.committed ≤ committed)
    (bound : ∀ count, phase = .committed count → count ≤ committed) :
    Kept { service.setPhase number phase with committed } := by
  obtain ⟨noAcquiring, noLease, _⟩ := kept.quiet idle
  have modified : ∀ key, (service.setPhase number phase).revocations.get? key =
      if key = number then (service.revocations.get? key).map fun other => { other with phase }
      else service.revocations.get? key := fun key => Table.get?_modify _
  refine kept.of_revocations le_rfl (fun key above => ?_) (fun key other present => ?_)
  · rw [modified, (kept.fresh key above).2.2.2]
    split <;> rfl
  · refine ⟨fun _ => idle, fun count same => ⟨?_, fun key acquiring present' => ?_,
      fun key lease present' => ?_⟩⟩
    · rw [modified] at present
      split at present
      next here =>
        rw [here, found] at present
        cases present
        exact bound count same
      next => exact le_trans (kept.committed key other count present same).1 counts
    · rw [noAcquiring] at present'
      cases present'
    · rw [noLease] at present'
      cases present'

theorem commitRevocation {revocation : Revocation} {fails : Bool}
    (found : service.revocations.get? number = some revocation)
    (drained : revocation.phase = .drained) :
    Kept (service.commitRevocation number revocation fails) := by
  have idle := kept.drained number revocation found drained
  obtain ⟨noAcquiring, _, noReauthorizing⟩ := kept.quiet idle
  have ended : Kept { service.setPhase number (.committed (service.committed + 1)) with
      committed := service.committed + 1 } := by
    refine kept.setPhase idle found (Nat.le_succ _) fun count same => ?_
    cases same
    exact le_rfl
  unfold AuthorizationService.commitRevocation
  split
  next => exact ended
  next =>
    split
    next => exact ended
    next catalog _ _ =>
      refine ⟨ended.counted, ended.fresh, ended.borrowed, ended.drained, List.mem_cons_self,
        fun key acquiring present => ?_, fun key reauthorizing present => ?_,
        fun handed member => ?_, ended.epoch, ended.admitted, ended.leased, ended.committed⟩
      · have missing := noAcquiring key
        rw [show service.acquiring.get? key = some acquiring from present] at missing
        cases missing
      · have missing := noReauthorizing key
        rw [show service.reauthorizing.get? key = some reauthorizing from present] at missing
        cases missing
      · obtain ⟨earlier, among, held⟩ := kept.paired handed member
        exact ⟨earlier, List.mem_cons_of_mem _ among, held⟩

theorem finishRevocation (meets : Meets service (.finishRevocation number)) :
    Kept (service.finishRevocation number) := by
  have counting : service.epoch < 2 ^ 64 - 1 := meets
  refine ⟨kept.counted, fun key above => ?_, kept.borrowed, fun key other present => ?_,
    kept.current, kept.acquired, kept.reread, kept.paired, ?_, kept.admitted, kept.leased,
    fun key other count present => ?_⟩
  · obtain ⟨first, second, third, fourth⟩ := kept.fresh key above
    refine ⟨first, second, third, Table.get?_erase.trans ?_⟩
    rw [fourth, ite_self]
  · change (service.revocations.erase number).get? key = some other at present
    exact kept.drained key other (Table.of_get?_erase present)
  · change min (service.epoch + 1) (2 ^ 64 - 1) = service.returned + 1
    rw [kept.epoch] at counting ⊢
    omega
  · change (service.revocations.erase number).get? key = some other at present
    exact kept.committed key other count (Table.of_get?_erase present)

theorem grantTeamRole {team principal : String} {role : SpaceRole} {expiresAt : Option Int64}
    {now : Int64} (meets : Meets service (.grantTeamRole team principal role expiresAt now))
    (granted : service.catalog.grantTeamRole team principal role expiresAt now = .ok catalog) :
    Kept (service.moveTo catalog) := by
  obtain ⟨acquiring, reauthorizing⟩ := meets catalog granted
  refine ⟨kept.counted, kept.fresh, kept.borrowed, kept.drained, List.mem_cons_self,
    fun key other present => (kept.acquired key other present).moveTo (acquiring key other present),
    fun key other present => (kept.reread key other present).moveTo (reauthorizing key other present),
    fun handed member => ?_, kept.epoch, kept.admitted, kept.leased, kept.committed⟩
  obtain ⟨earlier, among, held⟩ := kept.paired handed member
  exact ⟨earlier, List.mem_cons_of_mem _ among, held⟩

/-- **What one step preserves.** -/
theorem step (meets : Meets service action)
    (stepped : service.step action = some following) : Kept following := by
  cases action with
  | beginLease request =>
    cases stepped
    exact kept.beginLease meets
  | askLease number failure =>
    obtain ⟨acquiring, found, stepped⟩ := Option.bind_eq_some_iff.mp stepped
    obtain ⟨reading, asked, ⟨⟩⟩ := Option.bind_eq_some_iff.mp stepped
    exact kept.askLease found asked
  | finishLease number =>
    obtain ⟨acquiring, found, stepped⟩ := Option.bind_eq_some_iff.mp stepped
    split at stepped
    next => cases stepped
    next result rest =>
      cases stepped
      exact kept.finishLease found rest
  | dropLease number =>
    obtain ⟨lease, found, stepped⟩ := Option.bind_eq_some_iff.mp stepped
    obtain ⟨free, ⟨⟩⟩ := Option.ite_none_right_eq_some.mp stepped
    exact kept.dropLease found free
  | beginReauthorizing number permitted now =>
    obtain ⟨lease, found, ⟨⟩⟩ := Option.bind_eq_some_iff.mp stepped
    exact kept.beginReauthorizing found permitted now
  | askReauthorizing number failure =>
    obtain ⟨reauthorizing, found, stepped⟩ := Option.bind_eq_some_iff.mp stepped
    obtain ⟨reading, asked, ⟨⟩⟩ := Option.bind_eq_some_iff.mp stepped
    exact kept.askReauthorizing found asked
  | finishReauthorizing number =>
    obtain ⟨reauthorizing, found, stepped⟩ := Option.bind_eq_some_iff.mp stepped
    obtain ⟨lease, _, stepped⟩ := Option.bind_eq_some_iff.mp stepped
    split at stepped
    next => cases stepped
    next result rest =>
      cases stepped
      exact kept.finishReauthorizing found rest
  | beginRevocation team principal =>
    cases stepped
    exact kept.beginRevocation team principal
  | drainRevocation number =>
    obtain ⟨revocation, found, stepped⟩ := Option.bind_eq_some_iff.mp stepped
    obtain ⟨⟨_, idle⟩, ⟨⟩⟩ := Option.ite_none_right_eq_some.mp stepped
    exact kept.setPhase idle found le_rfl fun count same => nomatch same
  | commitRevocation number fails =>
    obtain ⟨revocation, found, stepped⟩ := Option.bind_eq_some_iff.mp stepped
    obtain ⟨drained, ⟨⟩⟩ := Option.ite_none_right_eq_some.mp stepped
    exact kept.commitRevocation found drained
  | finishRevocation number =>
    obtain ⟨revocation, _, stepped⟩ := Option.bind_eq_some_iff.mp stepped
    split at stepped
    next =>
      cases stepped
      exact kept.finishRevocation meets
    next => cases stepped
  | grantTeamRole team principal role expiresAt now =>
    unfold AuthorizationService.step at stepped
    dsimp only at stepped
    split at stepped
    next =>
      cases stepped
      exact kept
    next catalog granted =>
      cases stepped
      exact kept.grantTeamRole meets granted

end Kept

/-- **Leases and revocations.** In every run in which no lease passes the gate
between the drain of a revocation and its commit, no role granted meanwhile disturbs
a reading, and the epochs last, leases and revocations exclude each other and every
grant is of one catalog. -/
theorem leases_guarded (catalog : Catalog) (actions : List Action)
    (meets : Throughout AuthorizationService.step Meets (new catalog) actions) :
    ∀ before after reached, actions = before ++ after →
      runs AuthorizationService.step (new catalog) before = some reached → Guarded reached := by
  rintro before after reached rfl run
  have kept : Kept reached := invariant_of_throughout Kept.new
    (fun _ _ _ kept meets stepped => kept.step meets stepped) (throughout_append.mp meets).1 run
  exact kept.guarded

end AuthorizationService

end Guarantee

/-! ## Two revocations at once -/

namespace AuthorizationService

abbrev ownSpace : CatalogSpace :=
  ⟨⟨⟨0x00000000000070008000000000000003, by decide⟩, by decide⟩, .user "local:one", 1, .active, 0⟩

abbrev ownRequest : GrantRequest := ⟨"local:one", .human, ownSpace, .read, 0⟩

/-- One principal and one team. -/
abbrev smallCatalog : Catalog where
  principals := Table.empty.put "local:one" ⟨true, 1⟩
  teams := Table.empty.put "team:one" ⟨true, 1⟩
  memberships := .empty
  credentialGeneration := 1
  catalogGeneration := 0

open Merge.Fixture in
theorem leases_guarded_once :
    Guarded (((new smallCatalog).beginRevocation "team:one" "local:one").beginLease ownRequest).1 := by
  refine leases_guarded smallCatalog [.beginRevocation "team:one" "local:one",
    .beginLease ownRequest] ?_ _ [] _ (List.append_nil _).symm rfl
  refine ⟨trivial, fun next stepped => ?_⟩
  cases stepped
  refine ⟨fun opened => ?_, fun _ _ => trivial⟩
  cases opened

/-- Two revocations have drained. The first one returns and opens the gate, and a
lease passes it before the second one commits. -/
abbrev overlapping : List Action :=
  [.beginRevocation "team:one" "local:one", .beginRevocation "team:one" "local:one",
    .commitRevocation 0 false, .finishRevocation 0, .beginLease ownRequest,
    .askLease 2 none, .askLease 2 none, .askLease 2 none, .askLease 2 none, .finishLease 2]

open Merge.Fixture in
theorem not_always_guarded : ¬ ∀ actions reached,
    runs AuthorizationService.step (new smallCatalog) actions = some reached → Guarded reached := by
  intro always
  have run : ∃ reached, runs AuthorizationService.step (new smallCatalog) overlapping =
      some reached ∧ (reached.revocations.get? 1).map Revocation.phase = some .drained ∧
        (reached.held.get? 3).isSome = true := by
    refine ⟨_, rfl, rfl, rfl⟩
  obtain ⟨reached, run, drained, alive⟩ := run
  obtain ⟨revocation, found, phase⟩ := Option.map_eq_some_iff.mp drained
  rw [(always overlapping reached run).exclusive 1 revocation found phase 3] at alive
  cases alive

end AuthorizationService

end OpenMemory.Daemon
