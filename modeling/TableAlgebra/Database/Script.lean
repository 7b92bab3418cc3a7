import TableAlgebra.Database.Driver

/-!
# Scripted drivers

A driver that answers from a script and keeps what it was asked.  An entry of the script answers the
first statement that begins with its text and is then used up; of several entries that fit, the one
added first answers.  A statement that no entry fits gets no rows.
-/

namespace TableAlgebra

/-- an entry of a script: the text a statement must begin with, and the answer -/
structure ScriptEntry where
  opening : String
  answer : Except String (List ResultRow)

/-- the entries not used up, the statements executed and the descriptors connected to, all in order -/
structure Script where
  entries : List ScriptEntry := []
  executed : List Statement := []
  connected : List String := []
  deriving Inhabited

/-- takes the first element that satisfies `p` out of a list -/
def takeFirst? {α : Type} (p : α → Bool) : List α → Option (α × List α)
  | [] => none
  | a :: rest =>
    if p a then some (a, rest)
    else (takeFirst? p rest).map fun (found, others) => (found, a :: others)

namespace Script

/-- the entry answers a statement: the statement's text begins with the entry's -/
def fits (s : Statement) (e : ScriptEntry) : Bool :=
  e.opening.toList.isPrefixOf s.sql.toList

def returning (script : Script) (opening : String) (rows : List ResultRow) : Script :=
  { script with entries := script.entries ++ [⟨opening, .ok rows⟩] }

def failing (script : Script) (opening message : String) : Script :=
  { script with entries := script.entries ++ [⟨opening, .error message⟩] }

def execute : Driver Script := fun statement script =>
  let script := { script with executed := script.executed ++ [statement] }
  match takeFirst? (fits statement) script.entries with
  | some (entry, others) => (entry.answer, { script with entries := others })
  | none => (.ok [], script)

/-- keeps the descriptor and gives the driver -/
def connect : Connector Script := fun url script =>
  (.ok execute, { script with connected := script.connected ++ [url] })

end Script

end TableAlgebra
