import TableAlgebra.Relation.Operators

/-!
# Relations as a program holds them

A program that derives a relation holds a new object, even if it says the same as another one.  A
handle pairs a relation with the serial number of the step that made it.  Restricting by no predicate
is no step: it gives the handle back.
-/

namespace TableAlgebra.Relation

/-- a relation and the serial number of the step that made it -/
structure Handle where
  serial : Serial
  relation : Relation
  deriving Inhabited

namespace Handle

def same (a b : Handle) : Bool := a.serial == b.serial

/-- restricts the relation; without a predicate the handle stays the same -/
def restrict (h : Handle) (fresh : Serial) (predicate : Option Expr) : Except AlgebraError Handle := do
  let derived ← h.relation.restrict predicate
  return ⟨if predicate.isSome then fresh else h.serial, derived⟩

theorem restrict_none (h : Handle) (fresh : Serial) : h.restrict fresh none = .ok h := rfl

end Handle

end TableAlgebra.Relation
