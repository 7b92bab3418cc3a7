import TableAlgebra.Database.Validation

/-!
# Transactions

A transaction is begun on a database, sends the statements of its calls, and is ended once: by a commit, by a
rollback, or by being left to itself.  Each of them drops it, and a drop leaves a warning unless the transaction
was marked as finished before.
-/

namespace TableAlgebra

/-- a unit of work on a database, told apart by its number -/
structure Transaction (σ : Type) where
  id : Serial
  database : Database σ
  finished : Bool := false

inductive Ending where
  | commit
  | rollback
  | dropped
  deriving DecidableEq, Inhabited

namespace Transaction

variable {σ : Type}

/-- sends a statement; an error of the driver is wrapped with the transaction and the text sent -/
def run (tx : Transaction σ) (statement : Statement) : Action σ (List ResultRow) := do
  Action.report (.executingInTransaction tx.id statement.sql)
  Action.send tx.database.driver (.transaction tx.id statement.sql) statement

def command (tx : Transaction σ) (c : Command) : Action σ (List ResultRow) := do
  tx.run (← Action.compile tx.database.dialect c)

/-- the rows of a relation, computed and renamed columns under their names -/
def query (tx : Transaction σ) (r : Relation) : Action σ QueryResult := do
  return .ofRows (← tx.command (.select r true))

def insert (tx : Transaction σ) (r : Relation) (rows : List Row) : Action σ (List ResultRow) :=
  tx.command (.insert r rows)

def update (tx : Transaction σ) (r : Relation) (row : Row) (condition : Option Expr) :
    Action σ (List ResultRow) :=
  tx.command (.update r row condition)

def remove (tx : Transaction σ) (r : Relation) (condition : Option Expr) :
    Action σ (List ResultRow) :=
  tx.command (.remove r condition)

/-- gives the transaction up; one that is not finished leaves a warning -/
def drop (tx : Transaction σ) : Action σ Unit :=
  unless tx.finished do
    Action.report (.transactionDropped tx.id)

/-- Sends the statement that ends the transaction.  The transaction is finished before the driver is asked, and
it is dropped afterwards whatever the driver answers. -/
def close (tx : Transaction σ) (sql : String) (closed : Event) : Action σ Unit := do
  let tx := { tx with finished := true }
  try
    let _ ← tx.run { sql }
    Action.report closed
  finally
    tx.drop

/-- Ends the transaction.  A commit or a rollback that the driver refuses ends it all the same. -/
def finish (tx : Transaction σ) : Ending → Action σ Unit
  | .commit => tx.close "commit" (.transactionCommit tx.id)
  | .rollback => tx.close "rollback" (.transactionRollback tx.id)
  | .dropped => tx.drop

end Transaction

/-- Begins a transaction.  One whose beginning the driver refuses is finished, and so it is dropped without a
warning. -/
def Database.begin {σ : Type} (db : Database σ) (id : Serial) : Action σ (Transaction σ) := do
  let tx : Transaction σ := { id, database := db }
  try
    let _ ← tx.run { sql := "begin" }
  catch error =>
    Transaction.drop { tx with finished := true }
    throw error
  Action.report (.transactionBegin id)
  return tx

end TableAlgebra
