import TableAlgebra.Expr.Build

/-!
# Scope

An expression is in scope of a relation if every attribute in it is an output column of the relation as
it stands, neither renamed away nor inside a computed column.  In a grouped relation a column outside
of every aggregate must moreover be determined by a grouping key.  The relation of a membership test is
not looked into: it has a scope of its own.
-/

namespace TableAlgebra

def Column.exposes (columns : List Column) (a : Attribute) : Bool :=
  columns.any fun c => c.expr.attribute? == some a

def Expr.inScope (columns : List Column) : Expr → Bool
  | .literal _ => true
  | .attr a => Column.exposes columns a
  | .binary _ _ l r => l.inScope columns && r.inScope columns
  | .aggregate _ _ e => e.inScope columns
  | .member _ e _ => e.inScope columns

/-- one of the keys that are bare attributes determines the attribute -/
def Expr.determine (groups : List Expr) (a : Attribute) : Bool :=
  groups.any fun key =>
    match key.attribute? with
    | some k => a.dependsOn k
    | none => false

/-- every attribute of the expression is among the columns and, unless it stands below an aggregate or
`aggregated` says so from the start, is determined by the groups -/
def Expr.inGroupScope (columns : List Column) (groups : List Expr) : Bool → Expr → Bool
  | _, .literal _ => true
  | aggregated, .attr a => Column.exposes columns a && (aggregated || Expr.determine groups a)
  | aggregated, .binary _ _ l r =>
    l.inGroupScope columns groups aggregated && r.inGroupScope columns groups aggregated
  | _, .aggregate _ _ e => e.inGroupScope columns groups true
  | aggregated, .member _ e _ => e.inGroupScope columns groups aggregated

namespace Relation

def owns (r : Relation) (a : Attribute) : Bool := Column.exposes r.columns a

def valid (r : Relation) (e : Expr) : Bool := e.inScope r.columns

/-- the expression may be given out by the relation as it is grouped -/
def validAggregate (r : Relation) (e : Expr) : Bool :=
  e.inGroupScope r.columns r.groups r.groups.isEmpty

end Relation

end TableAlgebra
