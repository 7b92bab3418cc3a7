import TableAlgebra.Sql.Dialect

/-!
# Errors of statements

Why no statement could be made.  The wording is in `CompileError.message` alone.
-/

namespace TableAlgebra

inductive WriteKind where
  | insert
  | update
  | remove
  deriving DecidableEq

inductive CompileError where
  | algebra (error : AlgebraError)
  | notCreatable
  | notWritable (kind : WriteKind)
  | unknownColumn (relation column : String)
  | emptyRow (kind : WriteKind)
  | heterogeneousRows (row : Nat)
  | multiRowUnsupported (dialect : Dialect)
  deriving DecidableEq

def WriteKind.name : WriteKind → String
  | insert => "insert"
  | update => "update"
  | remove => "remove"

def CompileError.message : CompileError → String
  | algebra error => error.message
  | notCreatable => "Relation is not creatable: only base tables can be created"
  | notWritable kind => s!"Relation is not writable: {kind.name} requires a base table"
  | unknownColumn relation column =>
    s!"Invalid attribute '{column}' for relation '{relation}'"
  | emptyRow kind => s!"{kind.name} requires at least one row and one column"
  | heterogeneousRows row => s!"Row {row} does not supply the same columns as the first row"
  | multiRowUnsupported dialect =>
    s!"The {dialect.name} dialect does not support multi-row inserts"

end TableAlgebra
