import OpenMemory.Foundation.Calls
import OpenMemory.Graph.ChangeSets

/-!
# The catalog of principals, teams and spaces

The part of the product database that decides who may do what: principals, teams
and memberships, with the generations that every change of authority advances.
Granting a role and revoking a membership are transactions. Reading an authority
is not: the role and each generation are queries of their own, so a reading is a
program that asks one query after the other.
-/

namespace OpenMemory.Daemon

open Foundation
open OpenMemory.Graph (AuthoritySnapshot)
open Merge (Blake3)

/-! ## Spaces -/

inductive CatalogSpaceState where
  | creating
  | active
  | closed
  | deleting
  | error
  deriving DecidableEq

inductive SpaceOwner where
  | user (principal : String)
  | team (team : String)
  deriving DecidableEq

/-- What is read of a row of `memory_spaces`. -/
structure CatalogSpace where
  id : SpaceId
  owner : SpaceOwner
  domainCount : UInt8
  state : CatalogSpaceState
  catalogGeneration : UInt64
  deriving DecidableEq

/-! ## Authority -/

structure Principal where
  active : Bool
  generation : UInt64

structure Team where
  active : Bool
  authorityGeneration : UInt64

structure Membership where
  role : SpaceRole
  authorityGeneration : UInt64
  expiresAt : Option Int64

/-- The tables of the control plane; memberships are keyed by team and principal. -/
structure Catalog where
  principals : Table String Principal
  teams : Table String Team
  memberships : Table (String × String) Membership
  credentialGeneration : UInt64
  catalogGeneration : UInt64

namespace Catalog

/-- The next value of a generation that is stored as a signed integer. -/
def nextGeneration (generation : UInt64) : Except String UInt64 :=
  if generation.toNat < 2 ^ 63 - 1 then .ok (generation + 1)
  else .error "authority generation overflow"

def bumpCatalogGeneration (catalog : Catalog) : Except String Catalog :=
  if catalog.catalogGeneration.toNat < 2 ^ 64 - 1 then
    .ok { catalog with catalogGeneration := catalog.catalogGeneration + 1 }
  else .error "catalog generation overflow"

/-- Advance the generation of a team that was just read. -/
def bumpTeam (catalog : Catalog) (team : String) : Except String Catalog :=
  match catalog.teams.get? team with
  | none => .ok catalog
  | some row => do
      let generation ← nextGeneration row.authorityGeneration
      .ok { catalog with teams :=
        catalog.teams.put team { row with authorityGeneration := generation } }

/-- `ProductStore::grant_team_role`. -/
def grantTeamRole (catalog : Catalog) (team principal : String) (role : SpaceRole)
    (expiresAt : Option Int64) (now : Int64) : Except String Catalog := do
  refuseIf (expiresAt.any fun expiry => expiry ≤ now) "membership expiry must be in the future"
  let teamRow ← orRefuse (catalog.teams.get? team) "unknown team"
  let principalRow ← orRefuse (catalog.principals.get? principal) "unknown principal"
  refuseIf (teamRow.active = false ∨ principalRow.active = false)
    "team and principal must both be active"
  let generation ← match catalog.memberships.get? (team, principal) with
    | none => .ok 1
    | some membership => nextGeneration membership.authorityGeneration
  let memberships := catalog.memberships.put (team, principal) ⟨role, generation, expiresAt⟩
  let catalog ← { catalog with memberships }.bumpTeam team
  catalog.bumpCatalogGeneration

/-- `ProductStore::revoke_team_member`, with whether a membership was removed. -/
def revokeTeamMember (catalog : Catalog) (team principal : String) :
    Except String (Catalog × Bool) :=
  match catalog.memberships.get? (team, principal) with
  | none => .ok (catalog, false)
  | some _ => do
      let memberships := catalog.memberships.erase (team, principal)
      let catalog ← { catalog with memberships }.bumpTeam team
      let catalog ← catalog.bumpCatalogGeneration
      .ok (catalog, true)

end Catalog

/-! ## Readings -/

/-- One statement that reads the catalog. -/
inductive Query where
  | principalActive (principal : String)
  | membershipRole (team principal : String) (now : Int64)
  | principalGeneration (principal : String)
  | credentialGeneration
  | catalogGeneration
  | teamGeneration (team : String)
  | membershipGeneration (team principal : String) (now : Int64)

/-- What a query yields; a row that is not there yields nothing. -/
abbrev Query.Answer : Query → Type
  | .principalActive _ => Bool
  | .membershipRole _ _ _ => Option SpaceRole
  | .principalGeneration _ | .teamGeneration _ | .membershipGeneration _ _ _ => Option UInt64
  | .credentialGeneration | .catalogGeneration => UInt64

/-- The membership has not expired. -/
def Membership.current (membership : Membership) (now : Int64) : Bool :=
  membership.expiresAt.all fun expiry => now < expiry

def Catalog.answer (catalog : Catalog) : (query : Query) → query.Answer
  | .principalActive principal => (catalog.principals.get? principal).any Principal.active
  | .membershipRole team principal now =>
    ((catalog.memberships.get? (team, principal)).filter fun membership =>
      (catalog.teams.get? team).any Team.active && membership.current now).map Membership.role
  | .principalGeneration principal =>
    ((catalog.principals.get? principal).filter Principal.active).map Principal.generation
  | .credentialGeneration => catalog.credentialGeneration
  | .catalogGeneration => catalog.catalogGeneration
  | .teamGeneration team =>
    ((catalog.teams.get? team).filter Team.active).map Team.authorityGeneration
  | .membershipGeneration team principal now =>
    ((catalog.memberships.get? (team, principal)).filter fun membership =>
      membership.current now).map Membership.authorityGeneration

inductive AuthorityError where
  | product (message : String)
  | unauthorized
  | actorForbidden
  | roleForbidden
  | revoking
  | staleLease

abbrev CatalogReading := Calls.Fallible Query Query.Answer AuthorityError

def askCatalog (query : Query) : CatalogReading query.Answer := ExceptT.lift (Calls.request query)

/-- A value that has to be there. -/
def present {α : Type} (value : Option α) (error : AuthorityError) : CatalogReading α :=
  match value with
  | some value => pure value
  | none => throw error

def roleFor (principal : String) (space : CatalogSpace) (now : Int64) :
    CatalogReading (Option SpaceRole) := do
  let active ← askCatalog (.principalActive principal)
  if active = false then return none
  match space.owner with
  | .user owner => return if owner = principal then some .maintainer else none
  | .team team => askCatalog (.membershipRole team principal now)

def authoritySnapshotFor [Blake3] (principal : String) (space : CatalogSpace) (now : Int64) :
    CatalogReading AuthoritySnapshot := do
  let found ← askCatalog (.principalGeneration principal)
  let principalGeneration ← present found (.product "principal is not active")
  let credentialGeneration ← askCatalog .credentialGeneration
  let catalogGeneration ← askCatalog .catalogGeneration
  let generations := [credentialGeneration, catalogGeneration, space.catalogGeneration,
    principalGeneration]
  match space.owner with
  | .user _ => return .fromGenerations 1 generations
  | .team team => do
      let found ← askCatalog (.teamGeneration team)
      let teamGeneration ← present found (.product "team is not active")
      let found ← askCatalog (.membershipGeneration team principal now)
      let membershipGeneration ← present found (.product "membership is absent")
      return .fromGenerations 1 (generations ++ [teamGeneration, membershipGeneration])

end OpenMemory.Daemon
