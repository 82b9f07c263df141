import OpenMemory.Foundation.Calls
import OpenMemory.Foundation.Numerals

/-!
# Schema migrations

A migrator creates its table, reads the stored version, and executes every later step
in a transaction of its own, which also stores the version of the step. What it has
read is trusted from then on. A storage failure while the version is read is taken for
version 0.

A migrator is a program that asks its connection; what happens to the database between
two requests is up to whoever runs it. The tables that the steps change are a
parameter, and so are the steps. A transaction is one request: it is rolled back when
it fails. Which steps were executed is kept by an observer.
-/

namespace OpenMemory.Core.Migrations

open Foundation

variable {Schema : Type}

inductive OmError where
  | sqlite (message : String)
  | schemaTooNew (current max : Nat)
  | migration (version : Nat) (reason : String)

def OmError.toString : OmError → String
  | .sqlite message => s!"SQLite error: {message}"
  | .schemaTooNew current max =>
    s!"schema version {current} is newer than supported (max {max}); upgrade openmemory"
  | .migration version reason => s!"migration failed at version {version}: {reason}"

abbrev OmResult (α : Type) := Except OmError α

def maxVersion : Nat := 2 ^ 32 - 1

/-- The SQL of a step changes the tables or fails. -/
abbrev Sql (Schema : Type) := Schema → Except String Schema

/-! ## The connection -/

inductive Request (Schema : Type) where
  /-- `CREATE TABLE IF NOT EXISTS` of the metadata table. -/
  | createTable
  | tableExists
  | schemaVersionRow
  | userVersion
  /-- `BEGIN IMMEDIATE` to `COMMIT`: the SQL of a step, if there is one, the stored
  version and, where it is asked for, `user_version`. -/
  | transaction (version : Nat) (sql : Option (Sql Schema)) (updateUserVersion : Bool)

abbrev Request.Answer : Request Schema → Type
  | .createTable => Except String Unit
  | .tableExists => Except String Bool
  | .schemaVersionRow => Except String (Option String)
  | .userVersion => Except String Nat
  | .transaction _ _ _ => OmResult Unit

/-- The answer when the storage fails. -/
def Request.failed : (request : Request Schema) → OmError → request.Answer
  | .createTable, error | .tableExists, error | .schemaVersionRow, error | .userVersion, error =>
    .error error.toString
  | .transaction _ _ _, error => .error error

structure Database (Schema : Type) where
  /-- The metadata table with the row of the version. -/
  table : Option (Option String)
  userVersion : Nat
  schema : Schema
  /-- The versions of the steps that were executed. -/
  executed : List Nat

/-- `PRAGMA user_version` takes what is no 32-bit signed integer for zero. -/
def pragmaValue (version : Nat) : Nat := if version < 2 ^ 31 then version else 0

namespace Database

/-- A version is stored after the SQL of its step was executed. -/
def commit (db : Database Schema) (version : Nat) (schema : Schema) (executed : List Nat)
    (updateUserVersion : Bool) : Database Schema where
  table := some (some (Nat.repr version))
  userVersion := if updateUserVersion then pragmaValue version else db.userVersion
  schema := schema
  executed := db.executed ++ executed

/-- What a request answers and does when the storage does not fail. -/
def perform (db : Database Schema) : (request : Request Schema) → request.Answer × Database Schema
  | .createTable => (.ok (), { db with table := some (db.table.getD none) })
  | .tableExists => (.ok db.table.isSome, db)
  | .schemaVersionRow => match db.table with
      | some row => (.ok row, db)
      | none => (.error "no such table", db)
  | .userVersion => (.ok db.userVersion, db)
  | .transaction version sql updateUserVersion => match db.table with
      | none => (.error (.sqlite "no such table"), db)
      | some _ => match sql with
        | none => (.ok (), db.commit version db.schema [] updateUserVersion)
        | some sql => match sql db.schema with
          | .error reason => (.error (.migration version reason), db)
          | .ok schema => (.ok (), db.commit version schema [version] updateUserVersion)

end Database

/-! ## The migrator -/

/-- A method of a migrator. -/
abbrev Opener (Schema : Type) (α : Type) := Calls.Fallible (Request Schema) Request.Answer OmError α

/-- The answer to a request, whatever it is. -/
def ask (request : Request Schema) : Opener Schema request.Answer :=
  ExceptT.lift (Calls.request request)

/-- `?` on an answer of the connection. -/
def orSqlite {α : Type} : Except String α → Opener Schema α
  | .ok value => pure value
  | .error message => throw (.sqlite message)

namespace Migrator

def current : Opener Schema Nat := do
  let tableExists ← ask .tableExists
  if tableExists.toOption.getD false = false then
    return 0
  let raw ← ask .schemaVersionRow
  match raw.toOption.join with
  | none => return 0
  | some s => match parseUnsigned maxVersion s with
    | .ok version => return version
    | .error e => throw (.migration 0 s!"invalid schema_version row: {e}")

/-- The versions of the steps that are still to be applied, in the order they are
listed. -/
def pending (steps : List (Nat × Sql Schema)) (current target : Nat) : List Nat :=
  (steps.map Prod.fst).filter fun version => current < version && version ≤ target

def expected (current target : Nat) : List Nat := List.range' (current + 1) (target - current)

/-- A vector, as it is printed for debugging. -/
def debugVersions (versions : List Nat) : String :=
  "[" ++ ", ".intercalate (versions.map Nat.repr) ++ "]"

/-- The two markers of the version have to agree. -/
def checkUserVersion (current : Nat) : Opener Schema Unit := do
  let userVersion ← ask .userVersion
  let userVersion ← orSqlite userVersion
  if userVersion ≠ 0 ∧ userVersion ≠ current then
    throw (.migration current
      s!"metadata version {current} disagrees with user_version {userVersion}")

def checkCovers (steps : List (Nat × Sql Schema)) (current target : Nat) :
    Opener Schema Unit := do
  let pending := pending steps current target
  let expected := expected current target
  if pending ≠ expected then
    let expected := debugVersions expected
    let found := debugVersions pending
    throw (.migration current ("migration steps must cover each version in order; " ++
      s!"expected {expected}, found {found}"))

def transaction (version : Nat) (sql : Option (Sql Schema)) (updateUserVersion : Bool) :
    Opener Schema Unit :=
  ExceptT.mk (Calls.request (Request.transaction version sql updateUserVersion))

/-- The loop over the steps. -/
def applySteps (current target : Nat) (updateUserVersion : Bool) :
    List (Nat × Sql Schema) → Opener Schema Unit
  | [] => pure ()
  | (version, sql) :: rest =>
    if version ≤ current ∨ target < version then
      applySteps current target updateUserVersion rest
    else do
      transaction version (some sql) updateUserVersion
      applySteps current target updateUserVersion rest

def applyInner (target : Nat) (steps : List (Nat × Sql Schema)) (updateUserVersion : Bool) :
    Opener Schema Unit := do
  let created ← ask .createTable
  orSqlite created
  let current ← Migrator.current
  if updateUserVersion then
    checkUserVersion current
  if target < current then
    throw (.schemaTooNew current target)
  if updateUserVersion then
    checkCovers steps current target
  applySteps current target updateUserVersion steps
  let reached ← Migrator.current
  if reached < target then
    transaction target none updateUserVersion

def apply (target : Nat) (steps : List (Nat × Sql Schema)) : Opener Schema Unit :=
  applyInner target steps false

def applyWithUserVersion (target : Nat) (steps : List (Nat × Sql Schema)) : Opener Schema Unit :=
  applyInner target steps true

end Migrator

end OpenMemory.Core.Migrations
