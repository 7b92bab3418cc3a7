import TableAlgebra.Number.Shortest

/-!
# Host values

The values a program hands in: booleans, 64-bit integers, doubles and strings.
-/

namespace TableAlgebra

inductive Value where
  | bool (value : Bool)
  | int (value : Int64)
  | float (value : Binary64)
  | string (value : String)
  deriving DecidableEq, Inhabited

end TableAlgebra
