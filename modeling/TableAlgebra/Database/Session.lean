import TableAlgebra.Database.Driver
import TableAlgebra.Database.Event

/-!
# Sessions

Work on a database runs on the state of its driver, reports events as it goes, and may fail on the way;
what was done and reported before a failure stays.
-/

namespace TableAlgebra

/-! ## errors -/

/-- why work on a database failed; the errors of a driver are carried through unchanged -/
inductive DatabaseError where
  | driver (error : String)
  | compile (error : CompileError)
  | schemaDrift (table expected found : String)
  | transaction (id : Serial) (sql error : String)
  deriving DecidableEq

def DatabaseError.ofAlgebra (error : AlgebraError) : DatabaseError := .compile (.algebra error)

/-- the wording of an error, transactions written by `showTransaction` -/
def DatabaseError.message (showTransaction : Serial → String) : DatabaseError → String
  | driver error => s!"Driver error: {error}"
  | compile error => s!"Compile error: {error.message}"
  | schemaDrift table expected found =>
    s!"Schema drift on table '{table}': expected '{expected}', found '{found}'"
  | transaction id sql error =>
    s!"Transaction {showTransaction id} failed on '{sql}': {error}"

/-! ## sessions -/

/-- the state of the driver and the events reported so far, in order -/
structure Session (σ : Type) where
  state : σ
  events : List Event := []

/-- work on a session: the session after it, whether it succeeds or fails -/
abbrev Action (σ α : Type) := ExceptT DatabaseError (StateM (Session σ)) α

namespace Action

variable {σ α : Type}

def report (e : Event) : Action σ Unit :=
  modify fun s => { s with events := s.events ++ [e] }

/-- gives the statement for a command; a statement that is made is reported -/
def compile (d : Dialect) (c : Command) : Action σ Statement :=
  match c.compile d with
  | .error e => throw (.compile e)
  | .ok statement => do
    report (.compiledStatement d c.kindName statement)
    return statement

/-- has the driver execute a statement; its error is wrapped by `wrap` -/
def send (driver : Driver σ) (wrap : String → DatabaseError) (statement : Statement) :
    Action σ (List ResultRow) := do
  let session ← get
  let (answer, state) := driver statement session.state
  set { session with state }
  match answer with
  | .ok rows => return rows
  | .error e => throw (wrap e)

/-- runs work on the state of a driver: its result, the state after it, and the events in order -/
def runOn (action : Action σ α) (state : σ) : Except DatabaseError α × σ × List Event :=
  let (result, session) := (ExceptT.run action).run { state }
  (result, session.state, session.events)

end Action

end TableAlgebra
