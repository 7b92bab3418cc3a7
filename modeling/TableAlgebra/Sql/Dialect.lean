import TableAlgebra.Attribute
import TableAlgebra.Statement.Basic
import TableAlgebra.Text.LetterCase

/-!
# Dialects

What differs between the two targets of statements: how numbered columns and keys are declared, how
placeholders are written, how rows are inserted, and how the definition of a live table is looked up.
-/

namespace TableAlgebra

inductive Dialect where
  | sqlite
  | postgres
  deriving DecidableEq, Inhabited

/-- the storage class of a base type; truth values are stored as integers, labels as text -/
def BaseType.affinity : BaseType → String
  | integer => "integer"
  | number => "numeric"
  | string => "text"
  | boolean => "integer"
  | enum _ => "text"

namespace Dialect

def name : Dialect → String
  | sqlite => "sqlite"
  | postgres => "postgres"

/-- the storage class of a type, that of its base type in every dialect -/
def affinity (_ : Dialect) (type : DataType) : String := type.underlying.affinity

/-- the literal of a truth value, of the storage class of integers in both dialects -/
def booleanLiteral (d : Dialect) (value : Bool) : String :=
  match d with
  | sqlite | postgres => if value then "1" else "0"

theorem booleanLiteral_eq (d : Dialect) (value : Bool) :
    d.booleanLiteral value = if value then "1" else "0" := by
  cases d <;> rfl

def columnType (d : Dialect) (a : Attribute) : String :=
  match d with
  | sqlite => d.affinity a.type
  | postgres =>
    if a.qualifiers.autoIncrement && d.affinity a.type == "integer" then "serial"
    else d.affinity a.type

def keyConstraint? (d : Dialect) (a : Attribute) : Option String :=
  match d with
  | sqlite =>
    if a.qualifiers.autoIncrement then some "primary key autoincrement"
    else if a.qualifiers.primaryKey then some "primary key"
    else none
  | postgres => if a.qualifiers.primaryKey then some "primary key" else none

/-- the placeholder of a parameter, counted from one -/
def placeholder (d : Dialect) (index : Nat) : String :=
  match d with
  | sqlite => "?"
  | postgres => "$" ++ toString index

/-- several rows may be inserted by one statement -/
def multiRow : Dialect → Bool
  | sqlite => false
  | postgres => true

/-- what is written after every insertion -/
def insertSuffix : Dialect → String
  | sqlite => ""
  | postgres => " returning *"

/-- the query for the definition of a live table; no rows mean that there is no such table -/
def definitionLookup (d : Dialect) (table : String) : Statement :=
  match d with
  | sqlite =>
    { sql := "select sql from sqlite_master where type='table' and name=" ++ d.placeholder 1
      params := [.string table] }
  | postgres =>
    { sql := "select column_name from information_schema.columns where table_name="
        ++ d.placeholder 1
      params := [.string table] }

/-- the column of a looked-up definition that holds its text; without one a table is only looked for -/
def definitionColumn? : Dialect → Option String
  | sqlite => some "sql"
  | postgres => none

/-- The dialect of a name in any letter case; for an unknown name the name in lower case. -/
def parse? (text : String) : Except String Dialect :=
  let lower := lowercase text
  if lower == "sqlite" then .ok sqlite
  else if lower == "postgres" || lower == "postgresql" || lower == "pg" then .ok postgres
  else .error lower

def unknownMessage (lower : String) : String := s!"unknown dialect '{lower}'"

def toJson (d : Dialect) : Json := .string d.name

def ofName? (text : String) : Option Dialect :=
  if text == "sqlite" then some sqlite
  else if text == "postgres" then some postgres
  else none

/-- the dialect a part stands for: its name, or an object whose only member has that name and holds
null -/
def ofWritten? : Written → Option Dialect
  | .string units => (decodeUnits? units).bind fun cs => ofName? (String.ofList cs)
  | .object [⟨name, .null⟩] => (decodeUnits? name).bind fun cs => ofName? (String.ofList cs)
  | _ => none

end Dialect

end TableAlgebra
