/-!
# Operators

The binary operators of expressions in three families, and the aggregate functions.  Each has a name,
which messages use, and a symbol, which statements use.
-/

namespace TableAlgebra

/-- comparisons, between values of types that meet -/
inductive CompareOp where
  | eq
  | lt
  | gt
  | le
  | ge
  | ne
  deriving DecidableEq, Inhabited

/-- connectives, between truth values -/
inductive LogicOp where
  | and
  | or
  deriving DecidableEq, Inhabited

/-- arithmetic, between numbers -/
inductive ArithOp where
  | add
  | sub
  | mul
  | div
  | mod
  deriving DecidableEq, Inhabited

inductive BinaryOp where
  | compare (op : CompareOp)
  | logic (op : LogicOp)
  | arith (op : ArithOp)
  deriving DecidableEq, Inhabited

inductive AggregateFunc where
  | count
  | avg
  deriving DecidableEq, Inhabited

namespace BinaryOp

def name : BinaryOp → String
  | compare .eq => "eq"
  | compare .lt => "lt"
  | compare .gt => "gt"
  | compare .le => "le"
  | compare .ge => "ge"
  | compare .ne => "ne"
  | logic .and => "and"
  | logic .or => "or"
  | arith .add => "add"
  | arith .sub => "sub"
  | arith .mul => "mul"
  | arith .div => "div"
  | arith .mod => "mod"

def symbol : BinaryOp → String
  | compare .eq => "="
  | compare .lt => "<"
  | compare .gt => ">"
  | compare .le => "<="
  | compare .ge => ">="
  | compare .ne => "!="
  | logic .and => "and"
  | logic .or => "or"
  | arith .add => "+"
  | arith .sub => "-"
  | arith .mul => "*"
  | arith .div => "/"
  | arith .mod => "%"

end BinaryOp

def AggregateFunc.name : AggregateFunc → String
  | count => "count"
  | avg => "avg"

end TableAlgebra
