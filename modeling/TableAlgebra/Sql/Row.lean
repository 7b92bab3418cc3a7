import TableAlgebra.Expr.Build

/-!
# Rows to write

The values of an insertion or an update under the names of their columns, in the order in which the
columns were set.
-/

namespace TableAlgebra

abbrev Row := OrderedMap Operand

namespace Row

/-- the two rows set the same columns, in whatever order -/
def sameColumns (r other : Row) : Bool :=
  r.size == other.size && other.keys.all r.contains

end Row

end TableAlgebra
