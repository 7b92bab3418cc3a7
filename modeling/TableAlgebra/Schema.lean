import TableAlgebra.Relation.Operators

/-!
# Schemas

The declared tables of a program under their names, in the order of their declaration.
-/

namespace TableAlgebra

/-- tables in declaration order, no name twice -/
structure Schema where
  tables : OrderedMap Relation
  deriving Inhabited

namespace Schema

def empty : Schema := ⟨∅⟩

/-- Declares a table and registers it.  A name that is taken is refused before anything else is looked
at, and a declaration that fails registers nothing. -/
def declare (s : Schema) (serial : Serial) (name : String) (attributes : List Attribute)
    (options : OrderedMap Value) : Except AlgebraError (Relation × Schema) := do
  if s.tables.contains name then
    throw (.duplicateRelation name)
  let relation ← Relation.table serial name attributes options
  return (relation, ⟨s.tables.insert name relation⟩)

def get? (s : Schema) (name : String) : Option Relation := s.tables.find? name

end Schema

end TableAlgebra
