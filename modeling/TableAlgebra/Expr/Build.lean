import TableAlgebra.Expr.Basic

/-!
# Building expressions

Every builder wraps its right operand as a literal where it is a host value, checks the types of its
operands and gives the new node its type.
-/

namespace TableAlgebra

/-- what may stand where an expression is wanted: an expression, a host value or a domain's label -/
inductive Operand where
  | expr (expr : Expr)
  | value (value : Value)
  | label (value : EnumValue)
  deriving Inhabited

/-- an operand as an expression, host values and labels as literals -/
def Operand.toExpr : Operand → Except AlgebraError Expr
  | expr e => .ok e
  | value v => v.toLiteral.map Expr.literal
  | label v => .ok (.literal (.label v))

/-- The type of a binary node over operands of the given types.  The types must meet; a connective
needs them to meet in truth values and has the type they meet in, arithmetic likewise in numbers, and a
comparison is a plain truth value. -/
def BinaryOp.resultType? (op : BinaryOp) (left right : DataType) : Option DataType :=
  match op with
  | compare _ => (left.join right).map fun _ => .boolean
  | logic _ => (left.join right).filter DataType.isBoolean
  | arith _ => (left.join right).filter DataType.isNumeric

namespace Expr

def combine (op : BinaryOp) (left right : Expr) : Except AlgebraError Expr :=
  match op.resultType? left.type right.type with
  | some type => .ok (.binary op type left right)
  | none => .error (.incompatibleTypes (.operator op) left.type right.type)

def apply (op : BinaryOp) (left : Expr) (right : Operand) : Except AlgebraError Expr := do
  combine op left (← right.toExpr)

/-- the test whether a value is among those of a relation with exactly one column -/
def isIn (e : Expr) (r : Relation) : Except AlgebraError Expr :=
  match r.columns with
  | [c] =>
    if e.type.joinable c.expr.type then .ok (.member .boolean e r)
    else .error (.incompatibleTypes .membership e.type c.expr.type)
  | cs => .error (.notSingleAttribute cs.length)

def count (e : Expr) : Expr := .aggregate .count .number e

/-- the mean of values whose type meets number -/
def avg (e : Expr) : Except AlgebraError Expr :=
  if e.type.joinable .number then .ok (.aggregate .avg .number e)
  else .error (.notNumeric .avg e.type)

end Expr

end TableAlgebra
