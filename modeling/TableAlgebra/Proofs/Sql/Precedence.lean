import TableAlgebra.Proofs.Sql.Readability

/-!
# Reading an expression by precedence

The reader that the texts of expressions are held against.  It takes one token at a time and settles by
the levels of the operators which of two of them an operand belongs to: an operator waits for its right
operand until one comes that binds no tighter.  All operators are left-associative, and a membership test
stands on the level of `=`.  The query of a membership test is read as well, clause by clause.  Where an
operand is to follow, every word is a name.

| level | operators                |
|-------|--------------------------|
| 6     | `*` `/` `%`              |
| 5     | `+` `-`                  |
| 4     | `<` `<=` `>` `>=`        |
| 3     | `=` `!=` and `in (…)`    |
| 2     | `and`                    |
| 1     | `or`                     |

* `SqlExpr`, `SqlQuery`          the trees that texts are read as;
* `BinaryOp.level`               the table above;
* `SqlReader`, `SqlReader.step`  what has been read so far, and what one token does to it;
* `readExpr`                     the tree that a text is read as.
-/

namespace TableAlgebra

/-! ## trees -/

mutual

/-- an expression as it is read: a constant is given by its tokens -/
inductive SqlExpr where
  | constant (tokens : List Token)
  | name (table? : Option String) (column : String)
  | binary (op : BinaryOp) (left right : SqlExpr)
  | call (func : String) (operand : SqlExpr)
  | member (left : SqlExpr) (query : SqlQuery)

/-- a query as it is read, clause by clause -/
structure SqlQuery where
  columns : List SqlExpr
  sources : List String
  condition : Option SqlExpr
  groups : List SqlExpr
  orders : List SqlExpr

end

/-! ## operators -/

/-- how tightly an operator binds -/
def BinaryOp.level : BinaryOp → Nat
  | logic .or => 1
  | logic .and => 2
  | compare .eq | compare .ne => 3
  | compare _ => 4
  | arith .add | arith .sub => 5
  | arith _ => 6

/-- how tightly a membership test binds -/
def membershipLevel : Nat := (BinaryOp.compare .eq).level

def binaryOps : List BinaryOp :=
  [CompareOp.eq, .lt, .gt, .le, .ge, .ne].map .compare ++ [LogicOp.and, .or].map .logic
    ++ [ArithOp.add, .sub, .mul, .div, .mod].map .arith

/-- the operator that a token stands for between two operands -/
def Token.operator? (t : Token) : Option BinaryOp := binaryOps.find? fun op => op.slot.fill id == t

theorem Token.operator?_slot (op : BinaryOp) : (op.slot.fill id).operator? = some op := by
  cases op with
  | compare op => cases op <;> rfl
  | logic op => cases op <;> rfl
  | arith op => cases op <;> rfl

/-- the operators that wait for their right operands, the last one first, each with its left operand -/
abbrev Pending := List (BinaryOp × SqlExpr)

namespace Pending

/-- gives an operand to the operators that bind at least as tightly as the level -/
def reduce (level : Nat) : Pending → SqlExpr → Pending × SqlExpr
  | [], e => ([], e)
  | (op, l) :: rest, e =>
    if level ≤ op.level then reduce level rest (.binary op l e) else ((op, l) :: rest, e)

def finish (pending : Pending) (e : SqlExpr) : SqlExpr :=
  pending.foldl (fun e (op, l) => .binary op l e) e

theorem finish_reduce (level : Nat) (pending : Pending) (e : SqlExpr) :
    finish (reduce level pending e).1 (reduce level pending e).2 = finish pending e := by
  induction pending generalizing e with
  | nil => rfl
  | cons p pending ih =>
    obtain ⟨op, l⟩ := p
    rw [reduce]
    split
    · exact ih (.binary op l e)
    · rfl

theorem reduce_of_le {level : Nat} {op : BinaryOp} (h : level ≤ op.level) (l e : SqlExpr)
    (pending : Pending) : reduce level ((op, l) :: pending) e = reduce level pending (.binary op l e) := by
  rw [reduce, if_pos h]

/-- the last operator that waits binds less tightly than a membership test -/
def Loose (pending : Pending) : Prop := ∀ p ∈ pending.head?, p.1.level < membershipLevel

theorem loose_nil : Loose [] := fun _ h => nomatch h

theorem loose_cons {op : BinaryOp} (h : op.level < membershipLevel) (l : SqlExpr) (pending : Pending) :
    Loose ((op, l) :: pending) := by
  intro p hp
  rwa [← Option.some.inj hp]

theorem Loose.reduce_eq {pending : Pending} (h : pending.Loose) (e : SqlExpr) :
    pending.reduce membershipLevel e = (pending, e) := by
  cases pending with
  | nil => rfl
  | cons p pending =>
    have hlt : p.1.level < membershipLevel := h p rfl
    obtain ⟨op, l⟩ := p
    rw [reduce, if_neg (Nat.not_le.mpr hlt)]

end Pending

/-! ## clauses -/

/-- the clauses of a query, in the order in which they stand -/
inductive Clause where
  | columns
  | sources
  | condition
  | groups
  | orders
  deriving DecidableEq

namespace SqlReader

/-- what has been read last, or what is to follow -/
inductive Position where
  | operand
  /-- a minus where an operand is to follow -/
  | minus
  /-- a word where an operand is to follow -/
  | word (text : String)
  /-- the name of a table and a point -/
  | qualifier (table : String)
  /-- a complete operand -/
  | expr (e : SqlExpr)
  /-- `in` after the left operand -/
  | test (left : SqlExpr)
  /-- `in (` after the left operand -/
  | query (left : SqlExpr)
  /-- the name of a source is to follow -/
  | source
  /-- a complete item of a clause -/
  | item
  /-- the first of the two words that open a clause -/
  | by

/-- a parenthesis that was opened, and what waits for it to close; a query keeps what was read of it -/
inductive Frame where
  | group (pending : Pending)
  | call (pending : Pending) (func : String)
  | query (pending : Pending) (left : SqlExpr) (clause : Clause) (read : SqlQuery)

end SqlReader

namespace Clause

open SqlReader

/-- what an item of the clause begins with -/
def start : Clause → Position
  | sources => .source
  | _ => .operand

def opening : Clause → Position
  | groups | orders => .by
  | c => c.start

/-- the clause that a keyword opens after another one -/
def next : Clause → Token → Option Clause
  | columns, .word "from" => some sources
  | sources, .word "where" => some condition
  | sources, .word "group" | condition, .word "group" => some groups
  | sources, .word "order" | condition, .word "order" | groups, .word "order" => some orders
  | _, _ => none

end Clause

namespace SqlQuery

def empty : SqlQuery := ⟨[], [], none, [], []⟩

/-- the query with one more item of a clause; a source is no expression -/
def add (q : SqlQuery) (clause : Clause) (e : SqlExpr) : SqlQuery :=
  match clause with
  | .columns => { q with columns := q.columns ++ [e] }
  | .sources => q
  | .condition => { q with condition := some e }
  | .groups => { q with groups := q.groups ++ [e] }
  | .orders => { q with orders := q.orders ++ [e] }

def addSource (q : SqlQuery) (name : String) : SqlQuery := { q with sources := q.sources ++ [name] }

end SqlQuery

/-! ## the reader -/

/-- what has been read: the parentheses that are open, the operators that wait inside of the last one, and
what stands after them -/
structure SqlReader where
  frames : List SqlReader.Frame
  pending : Pending
  position : SqlReader.Position

namespace SqlReader

def start : SqlReader := ⟨[], [], .operand⟩

/-- a token after a complete item of a clause: the item is the last one, or there is one more, of this
clause or of another -/
def afterItem (frames : List Frame) (pending : Pending) (left : SqlExpr) (clause : Clause) (read : SqlQuery)
    (t : Token) : Option SqlReader :=
  if t = .symbol ")" then
    if clause = .columns then none else some ⟨frames, pending, .expr (.member left read)⟩
  else if t = .symbol "," then
    if clause = .condition then none
    else some ⟨.query pending left clause read :: frames, [], clause.start⟩
  else (clause.next t).map fun c => ⟨.query pending left c read :: frames, [], c.opening⟩

def close : List Frame → SqlExpr → Token → Option SqlReader
  | .group pending :: frames, e, t =>
    if t = .symbol ")" then some ⟨frames, pending, .expr e⟩ else none
  | .call pending func :: frames, e, t =>
    if t = .symbol ")" then some ⟨frames, pending, .expr (.call func e)⟩ else none
  | .query pending left clause read :: frames, e, t =>
    afterItem frames pending left clause (read.add clause e) t
  | [], _, _ => none

def afterExpr (frames : List Frame) (pending : Pending) (e : SqlExpr) (t : Token) : Option SqlReader :=
  match t.operator? with
  | some op =>
    some ⟨frames, (op, (pending.reduce op.level e).2) :: (pending.reduce op.level e).1, .operand⟩
  | none =>
    if t = .word "in" then
      some ⟨frames, (pending.reduce membershipLevel e).1, .test (pending.reduce membershipLevel e).2⟩
    else close frames (pending.finish e) t

/-- what one token does -/
def step (s : SqlReader) (t : Token) : Option SqlReader :=
  match s.position, t with
  | .operand, .numeral _ | .operand, .string _ => some { s with position := .expr (.constant [t]) }
  | .operand, .symbol "-" => some { s with position := .minus }
  | .operand, .symbol "(" => some ⟨.group s.pending :: s.frames, [], .operand⟩
  | .operand, .word text => some { s with position := .word text }
  | .minus, .numeral _ => some { s with position := .expr (.constant [.symbol "-", t]) }
  | .word text, t =>
    if t = .symbol "." then some { s with position := .qualifier text }
    else if t = .symbol "(" then some ⟨.call s.pending text :: s.frames, [], .operand⟩
    else afterExpr s.frames s.pending (.name none text) t
  | .qualifier table, .word column => some { s with position := .expr (.name (some table) column) }
  | .expr e, t => afterExpr s.frames s.pending e t
  | .test left, .symbol "(" => some { s with position := .query left }
  | .query left, .word "select" =>
    some ⟨.query s.pending left .columns .empty :: s.frames, [], .operand⟩
  | .source, .word name =>
    match s.frames with
    | .query pending left clause read :: frames =>
      some ⟨.query pending left clause (read.addSource name) :: frames, [], .item⟩
    | _ => none
  | .item, t =>
    match s.frames with
    | .query pending left clause read :: frames => afterItem frames pending left clause read t
    | _ => none
  | .by, .word "by" => some { s with position := .operand }
  | _, _ => none

def result? (s : SqlReader) : Option SqlExpr :=
  match s.frames, s.position with
  | [], .expr e => some (s.pending.finish e)
  | [], .word text => some (s.pending.finish (.name none text))
  | _, _ => none

def read (s : SqlReader) : List Token → Option SqlExpr
  | [] => s.result?
  | t :: ts => (s.step t).bind fun s => s.read ts

end SqlReader

def readExpr (text : String) : Option SqlExpr := (lex text).bind SqlReader.start.read

end TableAlgebra
