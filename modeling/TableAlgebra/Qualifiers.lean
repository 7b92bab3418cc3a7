import TableAlgebra.Value

/-!
# Column options

The options of a column: uniqueness, automatic numbering, primary key, null ban and default.  A domain
carries options too, and a column over the domain takes over those it does not set itself.
-/

namespace TableAlgebra

/-- the options of a column, or those a domain hands down to its columns -/
structure Qualifiers where
  unique : Bool := false
  autoIncrement : Bool := false
  primaryKey : Bool := false
  notNull : Bool := false
  default : Option Value := none
  deriving DecidableEq, Inhabited

namespace Qualifiers

/-- fills in from `defaults` every option that is not set here -/
def inherit (own defaults : Qualifiers) : Qualifiers where
  unique := own.unique || defaults.unique
  autoIncrement := own.autoIncrement || defaults.autoIncrement
  primaryKey := own.primaryKey || defaults.primaryKey
  notNull := own.notNull || defaults.notNull
  default := own.default.or defaults.default

/-- numbered, key and unique columns determine their row -/
def isUnique (q : Qualifiers) : Bool :=
  q.autoIncrement || q.primaryKey || q.unique

end Qualifiers

end TableAlgebra
