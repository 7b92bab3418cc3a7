import TableAlgebra.Attribute
import TableAlgebra.OrderedMap

/-!
# Expressions and relations

Expressions are trees over literals and attributes; every node keeps its type.  A membership test holds
a relation, and a relation holds expressions in its columns, restrictions, groups and orders, so the
two types are defined together.
-/

namespace TableAlgebra

/-- a declared table with its name and its free-form options, or a relation derived from others -/
inductive RelationKind where
  | table (name : String) (options : OrderedMap Value)
  | derived
  deriving Inhabited

mutual

/-- an expression over the attributes in scope -/
inductive Expr where
  | literal (value : Literal)
  | attr (leaf : Attribute)
  | binary (op : BinaryOp) (type : DataType) (left right : Expr)
  | aggregate (func : AggregateFunc) (type : DataType) (operand : Expr)
  | member (type : DataType) (operand : Expr) (relation : Relation)

/-- an output column: its name and the expression it holds -/
structure Column where
  key : String
  expr : Expr

/-- the tables read, the columns given out, the conditions kept and the keys of grouping and order -/
structure Relation where
  kind : RelationKind
  sources : List String
  columns : List Column
  restrictions : List Expr
  groups : List Expr
  orders : List Expr

end

instance : Inhabited Expr := ⟨.literal default⟩

instance : Inhabited Column := ⟨⟨"", default⟩⟩

instance : Inhabited Relation := ⟨⟨.derived, [], [], [], [], []⟩⟩

namespace Expr

/-- the type kept in the topmost node -/
def type : Expr → DataType
  | literal value => value.type
  | attr a => a.type
  | binary _ t _ _ => t
  | aggregate _ t _ => t
  | member t _ _ => t

def isAggregate : Expr → Bool
  | aggregate _ _ _ => true
  | _ => false

/-- the attribute, if the expression is one -/
def attribute? : Expr → Option Attribute
  | attr a => some a
  | _ => none

/-- The children of a node.  The relation of a membership test is no child: it has a scope of its
own. -/
def operands : Expr → List Expr
  | literal _ => []
  | attr _ => []
  | binary _ _ l r => [l, r]
  | aggregate _ _ e => [e]
  | member _ e _ => [e]

end Expr

namespace Relation

def isTable (r : Relation) : Bool :=
  match r.kind with
  | .table _ _ => true
  | .derived => false

def name? (r : Relation) : Option String :=
  match r.kind with
  | .table name _ => some name
  | .derived => none

def options? (r : Relation) : Option (OrderedMap Value) :=
  match r.kind with
  | .table _ options => some options
  | .derived => none

def keys (r : Relation) : List String := r.columns.map Column.key

/-- the expression of the output column of that name -/
def column? (r : Relation) (key : String) : Option Expr :=
  (r.columns.find? (·.key == key)).map Column.expr

/-- the output column of that name, as an expression to build on -/
def attr (r : Relation) (key : String) : Except AlgebraError Expr :=
  match r.column? key with
  | some e => .ok e
  | none => .error (.unknownAttribute key)

end Relation

end TableAlgebra
