import TableAlgebra.Database.Session
import TableAlgebra.Schema

/-!
# Databases

A database is a driver with a dialect.  Validation goes through the tables of a schema in the order of
their declaration: it creates those that are missing and compares the definitions of those that are
there, where the dialect keeps them, letter case aside.
-/

namespace TableAlgebra

inductive TableStatus where
  | created
  | verified
  deriving DecidableEq, Inhabited

def TableStatus.name : TableStatus → String
  | created => "created"
  | verified => "verified"

/-- a driver and the dialect of the statements for it -/
structure Database (σ : Type) where
  driver : Driver σ
  dialect : Dialect

namespace Database

variable {σ : Type}

def connect (dialect : Dialect) (url : String) (connector : Connector σ) : Action σ (Database σ) := do
  Action.report (.openingDatabase dialect)
  let session ← get
  let (answer, state) := connector url session.state
  set { session with state }
  match answer with
  | .ok driver => return { driver, dialect }
  | .error e => throw (.driver e)

/-- executes a statement outside of any transaction -/
def execute (db : Database σ) (statement : Statement) : Action σ (List ResultRow) := do
  Action.report (.executingStatement statement)
  Action.send db.driver .driver statement

/-- the text of a looked-up definition; empty where it is missing or no string -/
def foundText (column : String) (definition : ResultRow) : String :=
  ((definition.get? column).bind Json.string?).getD ""

/-- compares a live definition with the declared one, where the dialect keeps it -/
def verify (db : Database σ) (table : String) (create : Statement) (definition : ResultRow) :
    Action σ Unit := do
  if let some column := db.dialect.definitionColumn? then
    let found := foundText column definition
    if lowercase found != lowercase create.sql then
      Action.report (.schemaDrift table create.sql found)
      throw (.schemaDrift table create.sql found)

/-- creates or verifies one table, dropping it first if asked to -/
def validateTable (db : Database σ) (drop : Bool) (table : String) (r : Relation) :
    Action σ TableStatus := do
  let create ← Action.compile db.dialect (.create r)
  if drop then
    let _ ← db.execute (← Action.compile db.dialect (.drop r))
  match ← db.execute (db.dialect.definitionLookup table) with
  | [] =>
    let _ ← db.execute create
    Action.report (.createdTable table)
    return .created
  | definition :: _ =>
    db.verify table create definition
    Action.report (.verifiedTable table)
    return .verified

def validateTables (db : Database σ) (drop : Bool) : List Relation →
    Action σ (List (String × TableStatus))
  | [] => return []
  | r :: rest =>
    match r.name? with
    | none => db.validateTables drop rest
    | some table => do
      let status ← db.validateTable drop table r
      return (table, status) :: (← db.validateTables drop rest)

/-- Creates the missing tables of a schema and checks the others against their declarations.  With
`drop`, every table is dropped first. -/
def validate (db : Database σ) (schema : Schema) (drop : Bool) :
    Action σ (List (String × TableStatus)) :=
  db.validateTables drop schema.tables.values

def debugText (db : Database σ) : String :=
  "Database \x7b dialect: \"" ++ db.dialect.name ++ "\" \x7d"

end Database

end TableAlgebra
