import TableAlgebra.Statement.Basic

/-!
# Drivers

A driver executes one statement at a time and answers with rows or with an error of its own.  It is a
state and a step on it, so whatever a driver answers is a function of the statements it was sent.
-/

namespace TableAlgebra

/-! ## rows -/

/-- the values of a row under the names of its columns, sorted by name, no name twice -/
structure ResultRow where
  entries : List (String × Json)
  deriving Inhabited

namespace ResultRow

/-- gives a column a value, in its place in the order of names -/
def setSorted (column : String) (value : Json) : List (String × Json) → List (String × Json)
  | [] => [(column, value)]
  | e :: es =>
    if column < e.1 then (column, value) :: e :: es
    else if column = e.1 then (column, value) :: es
    else e :: setSorted column value es

def ofList (values : List (String × Json)) : ResultRow :=
  ⟨values.foldl (fun es v => setSorted v.1 v.2 es) []⟩

def columns (r : ResultRow) : List String := r.entries.map Prod.fst

def get? (r : ResultRow) (column : String) : Option Json :=
  (r.entries.find? fun e => e.1 == column).map Prod.snd

def toJson (r : ResultRow) : Json := .ofPairs r.entries

end ResultRow

/-- the rows of an answer with the columns of the first of them -/
structure QueryResult where
  columns : List String
  rows : List ResultRow
  deriving Inhabited

namespace QueryResult

/-- the result that rows make up; without rows there are no columns -/
def ofRows (rows : List ResultRow) : QueryResult where
  columns := match rows with
    | [] => []
    | first :: _ => first.columns
  rows := rows

def rowCount (q : QueryResult) : Nat := q.rows.length

def isEmpty (q : QueryResult) : Bool := q.rows.isEmpty

end QueryResult

/-! ## drivers -/

/-- executes a statement on a state: rows, or the driver's own error -/
abbrev Driver (σ : Type) := Statement → σ → Except String (List ResultRow) × σ

/-- opens a driver from a descriptor: an error of its own, or the driver -/
abbrev Connector (σ : Type) := String → σ → Except String (Driver σ) × σ

end TableAlgebra
