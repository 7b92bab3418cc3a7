import TableAlgebra.Relation.Scope

/-!
# Relations

A table is declared from attributes, and the operators derive further relations from it.  Every operator
checks its arguments against the columns in sight at the time; restrictions, groups and orders made
before stay as they are.
-/

namespace TableAlgebra

/-- the first name that stands earlier in the list -/
def firstRepeat? : List String → List String → Option String
  | _, [] => none
  | seen, name :: rest => if seen.contains name then some name else firstRepeat? (name :: seen) rest

def requireBoolean (place : Place) (e : Expr) : Except AlgebraError Unit :=
  if e.type.isBoolean then .ok () else .error (.notBoolean place e.type)

namespace Relation

def requireScope (r : Relation) (place : Place) (e : Expr) : Except AlgebraError Unit :=
  if r.valid e then .ok () else .error (.outOfScope place)

/-- the columns of a table: its attributes, bound to it, each under its own name -/
def tableColumns (owner : Owner) (attributes : List Attribute) : List Column :=
  attributes.map fun a => ⟨a.name, .attr (a.bind owner)⟩

/-- Declares a table.  Each attribute becomes a column of the new table; the names must be distinct and
there must be at least one. -/
def table (serial : Serial) (name : String) (attributes : List Attribute)
    (options : OrderedMap Value) : Except AlgebraError Relation := do
  requireIdentifier name
  if let some repeated := firstRepeat? [] (attributes.map Attribute.name) then
    throw (.duplicateAttribute repeated)
  if attributes.isEmpty then
    throw (.noAttributes .table)
  return {
    kind := .table name options
    sources := [name]
    columns := tableColumns ⟨serial, name⟩ attributes
    restrictions := []
    groups := []
    orders := [] }

/-- the columns of a projection, checked one after the other against the names before them -/
def projectColumns (r : Relation) : List String → List (String × Operand) →
    Except AlgebraError (List Column)
  | _, [] => .ok []
  | seen, (key, value) :: rest => do
    requireIdentifier key
    let e ← value.toExpr
    r.requireScope .projectArgument e
    if !r.validAggregate e then
      throw (.notAggregated key)
    if seen.contains key then
      throw (.duplicateAttribute key)
    return ⟨key, e⟩ :: (← projectColumns r (key :: seen) rest)

/-- Chooses, computes and renames columns.  Each is in scope and, in a grouped relation, aggregated or
determined by the groups. -/
def project (r : Relation) (columns : List (String × Operand)) : Except AlgebraError Relation := do
  let projected ← r.projectColumns [] columns
  if projected.isEmpty then
    throw (.noAttributes .project)
  return { r with kind := .derived, columns := projected }

def filter (r : Relation) (predicate : Expr) : Except AlgebraError Relation := do
  r.requireScope .restrictArgument predicate
  requireBoolean .restrictArgument predicate
  return { r with kind := .derived, restrictions := r.restrictions ++ [predicate] }

/-- keeps the rows that satisfy the predicate, or all of them, and the relation as it is, where there
is none -/
def restrict (r : Relation) : Option Expr → Except AlgebraError Relation
  | none => .ok r
  | some predicate => r.filter predicate

def firstShared? (r other : Relation) : Option String :=
  other.keys.find? fun key => r.keys.contains key

/-- Combines two relations, keeping the rows where `on` holds.  Output names must not collide, and `on`
is checked against the columns of both.  Groups and orders are those of the left relation. -/
def join (r other : Relation) (on : Expr) : Except AlgebraError Relation := do
  requireBoolean .joinArgument on
  if let some shared := r.firstShared? other then
    throw (.duplicateAttribute shared)
  let joined : Relation :=
    { kind := .derived
      sources := r.sources ++ other.sources
      columns := r.columns ++ other.columns
      restrictions := r.restrictions ++ other.restrictions ++ [on]
      groups := r.groups
      orders := r.orders }
  joined.requireScope .joinArgument on
  return joined

def group (r : Relation) (key : Expr) : Except AlgebraError Relation := do
  r.requireScope .groupArgument key
  return { r with kind := .derived, groups := r.groups ++ [key] }

def order (r : Relation) (key : Expr) : Except AlgebraError Relation := do
  r.requireScope .orderArgument key
  return { r with kind := .derived, orders := r.orders ++ [key] }

end Relation

end TableAlgebra
