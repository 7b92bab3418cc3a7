import TableAlgebra.DataType
import TableAlgebra.Expr.Operator

/-!
# Errors of the algebra

Why a declaration, an expression or a relation was refused.  Each cause carries what it is about; the
wording is in `AlgebraError.message` alone.
-/

namespace TableAlgebra

inductive TypedUse where
  | operator (op : BinaryOp)
  | membership
  | default
  | insert
  | update
  deriving DecidableEq

/-- the place an expression was given for -/
inductive Place where
  | projectArgument
  | restrictArgument
  | joinArgument
  | groupArgument
  | orderArgument
  | writeValue
  | updateCondition
  | removeCondition
  deriving DecidableEq

/-- what was to be made of a list of columns -/
inductive ColumnList where
  | table
  | project
  deriving DecidableEq

inductive AlgebraError where
  | invalidIdentifier (name : String)
  | invalidEnumLabel (label : String)
  | invalidBaseType (name : String)
  | unknownEnumLabel (type label : String)
  | invalidLiteral (value : Binary64)
  | autoIncrementNotInteger (column : String)
  | incompatibleTypes (use : TypedUse) (left right : DataType)
  | notBoolean (place : Place) (found : DataType)
  | notNumeric (func : AggregateFunc) (found : DataType)
  | outOfScope (place : Place)
  | notAggregated (key : String)
  | notSingleAttribute (count : Nat)
  | noAttributes (list : ColumnList)
  | duplicateAttribute (name : String)
  | duplicateRelation (name : String)
  | unknownAttribute (name : String)
  deriving DecidableEq

def TypedUse.name : TypedUse → String
  | operator op => op.name
  | membership => "in"
  | default => "default"
  | insert => "insert"
  | update => "update"

def Place.name : Place → String
  | projectArgument => "project argument"
  | restrictArgument => "restrict argument"
  | joinArgument => "join on argument"
  | groupArgument => "group argument"
  | orderArgument => "order argument"
  | writeValue => "write value"
  | updateCondition => "update condition"
  | removeCondition => "remove condition"

def ColumnList.name : ColumnList → String
  | table => "table"
  | project => "project"

def AlgebraError.message : AlgebraError → String
  | invalidIdentifier name => s!"Invalid identifier '{name}'"
  | invalidEnumLabel label => s!"Invalid enumeration label '{label}'"
  | invalidBaseType name =>
    s!"Invalid base type '{name}': domains must be based on a primitive or enum type"
  | unknownEnumLabel type label => s!"Unknown enumeration label '{label}' in domain '{type}'"
  | invalidLiteral value => s!"Invalid literal: {value.text}"
  | autoIncrementNotInteger column =>
    s!"Attribute '{column}' cannot be auto_increment: only integers can be auto_increment"
  | incompatibleTypes use left right =>
    s!"Invalid expression '{use.name}': arguments '{left.name}' and '{right.name}' are not compatible"
  | notBoolean place found =>
    s!"{place.name} is not a boolean expression (found '{found.name}')"
  | notNumeric func found =>
    s!"Aggregate '{func.name}' requires a numeric operand (found '{found.name}')"
  | outOfScope place => s!"{place.name} references an attribute outside the relation"
  | notAggregated key =>
    s!"Projection '{key}' is neither aggregated nor functionally dependent on the grouping"
  | notSingleAttribute count =>
    s!"Membership requires a relation with exactly one attribute (found {count})"
  | noAttributes list => s!"{list.name} requires at least one attribute"
  | duplicateAttribute name => s!"Duplicate attribute '{name}' in relation"
  | duplicateRelation name => s!"Relation '{name}' is already declared"
  | unknownAttribute name => s!"Relation has no attribute '{name}'"

def requireIdentifier (name : String) : Except AlgebraError Unit :=
  if isIdentifier name then .ok () else .error (.invalidIdentifier name)

end TableAlgebra
