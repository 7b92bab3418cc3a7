import TableAlgebra.Literal
import TableAlgebra.TypeDeclaration

/-!
# Columns of tables

An attribute is a named, typed column with its options.  It is declared loose and becomes a column of a
table when the table is declared; binding gives it the table as its owner.  Attributes are compared
with all they carry, and that includes where they come from: a loose attribute has a serial number, a
column its owner, so columns of two tables are never the same.
-/

namespace TableAlgebra

/-- the table a column belongs to: its serial number and its name -/
structure Owner where
  serial : Serial
  table : String
  deriving DecidableEq, Inhabited

inductive Origin where
  | loose (serial : Serial)
  | bound (owner : Owner)
  deriving DecidableEq, Inhabited

structure Attribute where
  name : String
  type : DataType
  qualifiers : Qualifiers
  origin : Origin
  deriving DecidableEq, Inhabited

/-- A column over an enumeration takes one of its labels as default; any other default is a literal
whose type meets the type of the column. -/
def DataType.checkDefault (type : DataType) (default : Value) : Except AlgebraError Unit :=
  match type.underlying, default with
  | .enum labels, .string label =>
    if labels.contains label then .ok () else .error (.unknownEnumLabel type.name label)
  | _, _ => do
    let literal ← default.toLiteral
    if type.joinable literal.type then return ()
    else throw (.incompatibleTypes .default type literal.type)

namespace Attribute

/-- declares a loose attribute; the options it does not set are those its type hands down -/
def declare (serial : Serial) (name : String) (type : DataType) (own : Qualifiers) :
    Except AlgebraError Attribute := do
  requireIdentifier name
  let qualifiers := own.inherit type.defaults
  if qualifiers.autoIncrement && !type.isInteger then
    throw (.autoIncrementNotInteger name)
  if let some default := qualifiers.default then
    type.checkDefault default
  return { name, type, qualifiers, origin := .loose serial }

def bind (a : Attribute) (owner : Owner) : Attribute := { a with origin := .bound owner }

/-- the owner of a column; a loose attribute has none -/
def owner? (a : Attribute) : Option Owner :=
  match a.origin with
  | .loose _ => none
  | .bound owner => some owner

def table? (a : Attribute) : Option String := a.owner?.map Owner.table

/-- the values of the column determine their rows -/
def isUnique (a : Attribute) : Bool := a.qualifiers.isUnique

/-- `key` determines the attribute: it is the attribute itself, or a unique column of its table -/
def dependsOn (a key : Attribute) : Bool :=
  a == key || (a.owner?.isSome && a.owner? == key.owner? && key.isUnique)

theorem owner?_bind (a : Attribute) (owner : Owner) : (a.bind owner).owner? = some owner := rfl

theorem table?_bind (a : Attribute) (owner : Owner) :
    (a.bind owner).table? = some owner.table := rfl

theorem name_bind (a : Attribute) (owner : Owner) : (a.bind owner).name = a.name := rfl

theorem dependsOn_self (a : Attribute) : a.dependsOn a = true := by simp [dependsOn]

end Attribute

end TableAlgebra
