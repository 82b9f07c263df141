import OpenMemory.Core.Migrations
import OpenMemory.Foundation.Runs

/-!
# Processes that open one database

The product database is migrated after its version was read once more. Several
processes open the same file: each of them makes one request after the other, and the
requests of different processes interleave. A process may be interrupted between two
requests, and the storage may fail at any request, which is rolled back then.

What a process has last read or stored as the version, and whether the storage has
failed it, is kept by an observer.
-/

namespace OpenMemory.Daemon.ProductSchema

open Foundation OpenMemory.Core.Migrations

variable {Schema : Type}

/-! ## The product store -/

inductive ProductStoreError where
  | sql (message : String)
  | unsupportedSchema (found supported : Int)
  | invalidSchemaVersion (message : String)

def productSchemaVersion : Nat := 4

abbrev ProductOpener (Schema : Type) (α : Type) :=
  Calls.Fallible (Request Schema) Request.Answer ProductStoreError α

/-- `?` on an answer of the connection. -/
def orSql {α : Type} : Except String α → ProductOpener Schema α
  | .ok value => pure value
  | .error message => throw (.sql message)

def askProduct (request : Request Schema) : ProductOpener Schema request.Answer :=
  ExceptT.lift (Calls.request request)

def readVersion : ProductOpener Schema Int := do
  let hasMeta ← askProduct .tableExists
  let hasMeta ← orSql hasMeta
  if hasMeta = false then
    return 0
  let row ← askProduct .schemaVersionRow
  let row ← orSql row
  match row with
  | none => return 0
  | some text => match parseSigned (2 ^ 63 - 1) text with
    | .error _ => throw (.invalidSchemaVersion text)
    | .ok version =>
      let pragmaVersion ← askProduct .userVersion
      let pragmaVersion ← orSql pragmaVersion
      if pragmaVersion ≠ 0 ∧ (pragmaVersion : Int) ≠ version then
        throw (.invalidSchemaVersion
          s!"metadata version {version} disagrees with user_version {pragmaVersion}")
      return version

/-- `migrate`, with the SQL of the four versions. -/
def migrate (v1 v2 v3 v4 : Sql Schema) : ProductOpener Schema Unit := do
  let current ← readVersion
  if (productSchemaVersion : Int) < current then
    throw (.unsupportedSchema current productSchemaVersion)
  ExceptT.adapt (fun error => .invalidSchemaVersion error.toString)
    (Migrator.applyWithUserVersion productSchemaVersion [(1, v1), (2, v2), (3, v3), (4, v4)])

/-! ## Openings -/

/-- How the processes open the database. -/
inductive Opening (Schema : Type) where
  | apply (target : Nat) (steps : List (Nat × Sql Schema))
  | applyWithUserVersion (target : Nat) (steps : List (Nat × Sql Schema))
  | productStore (v1 v2 v3 v4 : Sql Schema)

namespace Opening

def target : Opening Schema → Nat
  | .apply target _ | .applyWithUserVersion target _ => target
  | .productStore _ _ _ _ => productSchemaVersion

def steps : Opening Schema → List (Nat × Sql Schema)
  | .apply _ steps | .applyWithUserVersion _ steps => steps
  | .productStore v1 v2 v3 v4 => [(1, v1), (2, v2), (3, v3), (4, v4)]

def updatesUserVersion : Opening Schema → Bool
  | .apply _ _ => false
  | _ => true

/-- The error of a process that opens the database. -/
inductive Error where
  | migrator (error : OmError)
  | productStore (error : ProductStoreError)

abbrev Program (Schema : Type) := Calls (Request Schema) Request.Answer (Except Error Unit)

def program : Opening Schema → Program Schema
  | .apply target steps => (ExceptT.adapt Error.migrator (Migrator.apply target steps)).run
  | .applyWithUserVersion target steps =>
    (ExceptT.adapt Error.migrator (Migrator.applyWithUserVersion target steps)).run
  | .productStore v1 v2 v3 v4 => (ExceptT.adapt Error.productStore (migrate v1 v2 v3 v4)).run

end Opening

/-! ## The processes -/

/-- A process that opens the database. `seen` is the version that it has last read or
stored, and `hit` tells whether the storage has failed it. -/
structure Process (Schema : Type) where
  program : Opening.Program Schema
  seen : Nat
  hit : Bool

structure State (Schema : Type) where
  db : Database Schema
  processes : Nat → Option (Process Schema)

/-- The stored version, where it can be read. -/
def storedVersion (db : Database Schema) : Option Nat :=
  match db.table.join with
  | none => some 0
  | some text => (parseUnsigned maxVersion text).toOption

/-- The version that a process takes from an answer. -/
def seenAfter (seen : Nat) : (request : Request Schema) → request.Answer → Nat
  | .tableExists, .ok true => seen
  | .tableExists, _ => 0
  | .schemaVersionRow, .ok (some text) => ((parseUnsigned maxVersion text).toOption).getD 0
  | .schemaVersionRow, _ => 0
  | .transaction version _ _, .ok _ => version
  | _, _ => seen

inductive Action where
  | opens (process : Nat)
  /-- The process makes its request, at which the storage may fail. -/
  | request (process : Nat) (failure : Option OmError)
  | stop (process : Nat)

namespace State

def new (db : Database Schema) : State Schema := ⟨db, fun _ => none⟩

def setProcess (s : State Schema) (id : Nat) (process : Option (Process Schema)) : State Schema :=
  { s with processes := Function.update s.processes id process }

def step (opening : Opening Schema) (s : State Schema) : Action → Option (State Schema)
  | .opens id => match s.processes id with
      | none => some (s.setProcess id (some ⟨opening.program, 0, false⟩))
      | some _ => none
  | .request id failure => match s.processes id with
      | some ⟨.ask request next, seen, hit⟩ => match failure with
        | some error =>
          let answer := request.failed error
          some (s.setProcess id (some ⟨next answer, seenAfter seen request answer, true⟩))
        | none =>
          let answered := s.db.perform request
          some { s.setProcess id
              (some ⟨next answered.1, seenAfter seen request answered.1, hit⟩) with
            db := answered.2 }
      | _ => none
  | .stop id => some (s.setProcess id none)

end State

end OpenMemory.Daemon.ProductSchema
