import OpenMemory.Daemon.Catalog
import OpenMemory.Foundation.Runs

/-!
# Authorization leases

A lease passes the gate, reads a grant from the catalog, and is alive until it is
dropped. A revocation closes the gate, waits until no lease is active, runs its
transaction, and opens the gate again under the next epoch. A live lease may read
its grant again, which is refused once the epoch has moved on.

Many calls are under way at once. The steps are the sections under the mutex of the
gate, the single queries, and the transactions of the catalog; calls under way are
kept in tables under serial numbers. Past catalogs, the numbers of revocations that
have committed and returned, and the grants handed out are an observer's, and no
step depends on them.
-/

namespace OpenMemory.Daemon

open Foundation
open OpenMemory.Graph (AuthoritySnapshot)
open Merge (Blake3)

/-! ## Grants -/

inductive AuthorizedAction where
  | read
  | personalWrite
  | teamProposal
  | review
  | membership
  | promotion

def canWrite (role : SpaceRole) : Bool := role ≠ .reader

def authorizeAction (actor : ActorKind) (role : SpaceRole) (space : CatalogSpace) :
    AuthorizedAction → Except AuthorityError Unit
  | .read => .ok ()
  | .personalWrite => match space.owner with
    | .user _ => if canWrite role then .ok () else .error .roleForbidden
    | .team _ => .error (if canWrite role then .actorForbidden else .roleForbidden)
  | .teamProposal => match space.owner with
    | .team _ => if canWrite role then .ok () else .error .roleForbidden
    | .user _ => .error (if canWrite role then .actorForbidden else .roleForbidden)
  | .review =>
    if actor ≠ .human then .error .actorForbidden
    else if role.canReview then .ok () else .error .roleForbidden
  | .membership | .promotion =>
    if actor ≠ .human then .error .actorForbidden
    else if role = .maintainer then .ok () else .error .roleForbidden

structure SpaceGrant where
  space : SpaceId
  role : SpaceRole
  authority : AuthoritySnapshot

/-- Who asks for a grant on what, and when. -/
structure GrantRequest where
  principal : String
  actor : ActorKind
  space : CatalogSpace
  action : AuthorizedAction
  now : Int64

def grantFor [Blake3] (request : GrantRequest) : CatalogReading SpaceGrant := do
  let found ← roleFor request.principal request.space request.now
  let role ← present found .unauthorized
  let _ ← (liftExcept (authorizeAction request.actor role request.space request.action))
  let authority ← authoritySnapshotFor request.principal request.space request.now
  return ⟨request.space.id, role, authority⟩
where
  liftExcept {α : Type} (result : Except AuthorityError α) : CatalogReading α :=
    match result with
    | .ok value => pure value
    | .error error => throw error

/-! ## The state -/

/-- A reading of a grant under way: how many queries it has asked, and what is left. -/
structure Reading where
  request : GrantRequest
  asked : Nat
  rest : Calls Query Query.Answer (Except AuthorityError SpaceGrant)

def Reading.start [Blake3] (request : GrantRequest) : Reading := ⟨request, 0, (grantFor request).run⟩

/-- The next query is answered by the catalog, or fails. -/
def Reading.next (reading : Reading) (catalog : Catalog) (failure : Option String) :
    Option Reading :=
  match reading.rest, failure with
  | .done _, _ => none
  | .ask query next, none =>
    some { reading with asked := reading.asked + 1, rest := next (catalog.answer query) }
  | .ask _ _, some message =>
    some { reading with
      asked := reading.asked + 1, rest := .done (.error (.product message)) }

/-- What a lease keeps from its time at the gate: the epoch, and the revocations that
had committed and returned. -/
structure Admission where
  epoch : Nat
  committed : Nat
  returned : Nat

structure Acquiring where
  reading : Reading
  admission : Admission

structure AuthorizationLease where
  request : GrantRequest
  grant : SpaceGrant
  admission : Admission

/-- A lease that is reading its grant again. -/
structure Reauthorizing where
  lease : Nat
  reading : Reading

inductive RevocationPhase where
  | waiting
  | drained
  | committed (number : Nat)
  deriving DecidableEq

structure Revocation where
  team : String
  principal : String
  phase : RevocationPhase

/-- The grant that was handed out for a request. -/
structure Handed where
  request : GrantRequest
  grant : SpaceGrant

structure AuthorizationService where
  catalog : Catalog
  activeLeases : Nat
  revoking : Bool
  epoch : Nat
  acquiring : Table Nat Acquiring
  held : Table Nat AuthorizationLease
  reauthorizing : Table Nat Reauthorizing
  revocations : Table Nat Revocation
  serial : Nat
  /-- The catalogs so far, the present one first. -/
  catalogs : List Catalog
  committed : Nat
  returned : Nat
  handed : List Handed

namespace AuthorizationService

def new (catalog : Catalog) : AuthorizationService :=
  ⟨catalog, 0, false, 0, .empty, .empty, .empty, .empty, 0, [catalog], 0, 0, []⟩

/-- The catalog after a transaction. -/
def moveTo (service : AuthorizationService) (catalog : Catalog) : AuthorizationService :=
  { service with catalog, catalogs := catalog :: service.catalogs }

def releaseLease (service : AuthorizationService) : AuthorizationService :=
  { service with activeLeases := service.activeLeases - 1 }

/-- The gate of `lease`. -/
def beginLease [Blake3] (service : AuthorizationService) (request : GrantRequest) :
    AuthorizationService × Except AuthorityError Unit :=
  if service.revoking then (service, .error .revoking)
  else ({ service with
    activeLeases := service.activeLeases + 1
    acquiring := service.acquiring.put service.serial
      ⟨.start request, ⟨service.epoch, service.committed, service.returned⟩⟩
    serial := service.serial + 1 }, .ok ())

/-- The end of `lease`. -/
def finishLease (service : AuthorizationService) (number : Nat) (acquiring : Acquiring)
    (result : Except AuthorityError SpaceGrant) : AuthorizationService :=
  let ended := { service with acquiring := service.acquiring.erase number }
  match result with
  | .error _ => ended.releaseLease
  | .ok grant =>
    { ended with
      held := ended.held.put ended.serial ⟨acquiring.reading.request, grant, acquiring.admission⟩
      serial := ended.serial + 1
      handed := ⟨acquiring.reading.request, grant⟩ :: ended.handed }

/-- The start of `reauthorize`, also for `review_authorization`. -/
def beginReauthorizing [Blake3] (service : AuthorizationService) (number : Nat)
    (lease : AuthorizationLease) (action : AuthorizedAction) (now : Int64) :
    AuthorizationService × Except AuthorityError Unit :=
  if service.epoch ≠ lease.admission.epoch then (service, .error .staleLease)
  else ({ service with
    reauthorizing := service.reauthorizing.put service.serial
      ⟨number, .start { lease.request with action, now }⟩
    serial := service.serial + 1 }, .ok ())

/-- The end of `reauthorize`: a grant under another authority is refused. -/
def finishReauthorizing (service : AuthorizationService) (number : Nat)
    (reauthorizing : Reauthorizing) (lease : AuthorizationLease)
    (result : Except AuthorityError SpaceGrant) : AuthorizationService :=
  let ended := { service with reauthorizing := service.reauthorizing.erase number }
  match result with
  | .error _ => ended
  | .ok fresh =>
    if fresh.authority ≠ lease.grant.authority then ended
    else { ended with handed := ⟨reauthorizing.reading.request, fresh⟩ :: ended.handed }

/-- `begin_revocation` up to its first wait, if it has to wait. -/
def beginRevocation (service : AuthorizationService) (team principal : String) :
    AuthorizationService :=
  { service with
    revoking := true
    revocations := service.revocations.put service.serial
      ⟨team, principal, if service.activeLeases = 0 then .drained else .waiting⟩
    serial := service.serial + 1 }

def setPhase (service : AuthorizationService) (number : Nat) (phase : RevocationPhase) :
    AuthorizationService :=
  { service with revocations := service.revocations.modify number fun revocation =>
      { revocation with phase } }

/-- The transaction of a revocation, unless the storage fails. -/
def commitRevocation (service : AuthorizationService) (number : Nat) (revocation : Revocation)
    (fails : Bool) : AuthorizationService :=
  let ended := { service.setPhase number (.committed (service.committed + 1)) with
    committed := service.committed + 1 }
  if fails then ended
  else match service.catalog.revokeTeamMember revocation.team revocation.principal with
    | .error _ => ended
    | .ok (catalog, _) => ended.moveTo catalog

/-- `finish_revocation`, and the return. -/
def finishRevocation (service : AuthorizationService) (number : Nat) : AuthorizationService :=
  { service with
    epoch := min (service.epoch + 1) (2 ^ 64 - 1)
    revoking := false
    revocations := service.revocations.erase number
    returned := service.returned + 1 }

inductive Action where
  | beginLease (request : GrantRequest)
  | askLease (number : Nat) (failure : Option String)
  | finishLease (number : Nat)
  | dropLease (number : Nat)
  | beginReauthorizing (number : Nat) (action : AuthorizedAction) (now : Int64)
  | askReauthorizing (number : Nat) (failure : Option String)
  | finishReauthorizing (number : Nat)
  | beginRevocation (team principal : String)
  | drainRevocation (number : Nat)
  | commitRevocation (number : Nat) (fails : Bool)
  | finishRevocation (number : Nat)
  | grantTeamRole (team principal : String) (role : SpaceRole) (expiresAt : Option Int64)
      (now : Int64)

/-- One step. A lease is not dropped while it is reading its grant again. -/
def step [Blake3] (service : AuthorizationService) : Action → Option AuthorizationService
  | .beginLease request => some (service.beginLease request).1
  | .askLease number failure => do
      let acquiring ← service.acquiring.get? number
      let reading ← acquiring.reading.next service.catalog failure
      some { service with acquiring := service.acquiring.put number { acquiring with reading } }
  | .finishLease number => do
      let acquiring ← service.acquiring.get? number
      match acquiring.reading.rest with
      | .ask _ _ => none
      | .done result => some (service.finishLease number acquiring result)
  | .dropLease number => do
      let _ ← service.held.get? number
      if service.reauthorizing.entries.all fun entry => entry.2.lease ≠ number then
        some ({ service with held := service.held.erase number }.releaseLease)
      else none
  | .beginReauthorizing number action now => do
      let lease ← service.held.get? number
      some (service.beginReauthorizing number lease action now).1
  | .askReauthorizing number failure => do
      let reauthorizing ← service.reauthorizing.get? number
      let reading ← reauthorizing.reading.next service.catalog failure
      some { service with
        reauthorizing := service.reauthorizing.put number { reauthorizing with reading } }
  | .finishReauthorizing number => do
      let reauthorizing ← service.reauthorizing.get? number
      let lease ← service.held.get? reauthorizing.lease
      match reauthorizing.reading.rest with
      | .ask _ _ => none
      | .done result => some (service.finishReauthorizing number reauthorizing lease result)
  | .beginRevocation team principal => some (service.beginRevocation team principal)
  | .drainRevocation number => do
      let revocation ← service.revocations.get? number
      if revocation.phase = .waiting ∧ service.activeLeases = 0 then
        some (service.setPhase number .drained)
      else none
  | .commitRevocation number fails => do
      let revocation ← service.revocations.get? number
      if revocation.phase = .drained then
        some (service.commitRevocation number revocation fails)
      else none
  | .finishRevocation number => do
      let revocation ← service.revocations.get? number
      match revocation.phase with
      | .committed _ => some (service.finishRevocation number)
      | _ => none
  | .grantTeamRole team principal role expiresAt now =>
    match service.catalog.grantTeamRole team principal role expiresAt now with
    | .error _ => some service
    | .ok catalog => some (service.moveTo catalog)

end AuthorizationService

end OpenMemory.Daemon
