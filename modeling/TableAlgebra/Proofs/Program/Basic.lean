import TableAlgebra.Sql.Command
import TableAlgebra.TypeDeclaration

/-!
# Programs

A program calls the builders one after the other and then asks for a statement.  What a call makes is
referred to by the number of the call.  A call that fails makes nothing; the program goes on, and whatever
refers to the call fails as well.  Serial numbers are handed out by the workbench, a new one to each call.

* `Call`, `Call.run`         the calls of builders, and what they make;
* `Workbench`, `Workbench.run`   what has been made so far;
* `Request`, `Program`       the statement asked for after the calls;
* `Program.compile`          the statement of a program in a dialect.
-/

namespace TableAlgebra

/-! ## calls -/

inductive Made where
  | type (type : DataType)
  | label (value : EnumValue)
  | attr (leaf : Attribute)
  | expr (expr : Expr)
  | relation (relation : Relation)

/-- an argument: what an earlier call made, or a host value -/
inductive Argument where
  | made (number : Nat)
  | value (value : Value)

/-- a call of a builder; types, attributes and relations are given by the numbers of calls -/
inductive Call where
  | enumeration (labels : List String)
  | domain (name : String) (base : Nat) (defaults : Qualifiers)
  | label (domain : Nat) (label : String)
  | declare (name : String) (type : Nat) (own : Qualifiers)
  | table (name : String) (attributes : List Nat) (options : OrderedMap Value)
  | column (relation : Nat) (key : String)
  | apply (op : BinaryOp) (left right : Argument)
  | member (operand : Argument) (relation : Nat)
  | count (operand : Argument)
  | avg (operand : Argument)
  | project (relation : Nat) (columns : List (String × Argument))
  | restrict (relation : Nat) (predicate : Option Argument)
  | join (left right : Nat) (on : Argument)
  | group (relation : Nat) (key : Argument)
  | order (relation : Nat) (key : Argument)

namespace Made

def type? : Made → Option DataType
  | type t => some t
  | _ => none

def domain? : Made → Option Domain
  | type (.domain d) => some d
  | _ => none

def attribute? : Made → Option Attribute
  | attr a => some a
  | _ => none

def relation? : Made → Option Relation
  | relation r => some r
  | _ => none

def operand? : Made → Option Operand
  | label v => some (.label v)
  | attr a => some (.expr (.attr a))
  | expr e => some (.expr e)
  | _ => none

end Made

/-! ## workbenches -/

/-- the next serial number, and for each call what it made -/
structure Workbench where
  next : Serial
  made : List (Option Made)

namespace Workbench

/-- before the first call there are the primitive types -/
def start : Workbench where
  next := ⟨0⟩
  made := [some (.type .integer), some (.type .number), some (.type .string), some (.type .boolean)]

def find? (s : Workbench) (number : Nat) : Option Made := (s.made[number]?).join

def type? (s : Workbench) (number : Nat) : Option DataType := (s.find? number).bind Made.type?

def domain? (s : Workbench) (number : Nat) : Option Domain := (s.find? number).bind Made.domain?

def attribute? (s : Workbench) (number : Nat) : Option Attribute :=
  (s.find? number).bind Made.attribute?

def relation? (s : Workbench) (number : Nat) : Option Relation :=
  (s.find? number).bind Made.relation?

def operand? (s : Workbench) : Argument → Option Operand
  | .made number => (s.find? number).bind Made.operand?
  | .value v => some (.value v)

def expr? (s : Workbench) (argument : Argument) : Option Expr :=
  (s.operand? argument).bind fun o => o.toExpr.toOption

def named? (s : Workbench) (arguments : List (String × Argument)) : Option (List (String × Operand)) :=
  arguments.mapM fun (key, argument) => (s.operand? argument).map (key, ·)

def condition? (s : Workbench) : Option Argument → Option (Option Expr)
  | none => some none
  | some argument => (s.expr? argument).map some

end Workbench

/-- what a call makes at a workbench -/
def Call.run (s : Workbench) : Call → Option Made
  | enumeration labels => (BaseType.enumeration labels).toOption.map fun b => .type (.base b)
  | domain name base defaults => do
    let base ← s.type? base
    let d ← (Domain.declare s.next name base defaults).toOption
    return .type (.domain d)
  | label number text => do
    let d ← s.domain? number
    let v ← (d.value text).toOption
    return .label v
  | declare name type own => do
    let type ← s.type? type
    let a ← (Attribute.declare s.next name type own).toOption
    return .attr a
  | table name attributes options => do
    let attributes ← attributes.mapM s.attribute?
    let t ← (Relation.table s.next name attributes options).toOption
    return .relation t
  | column relation key => do
    let r ← s.relation? relation
    let e ← (r.attr key).toOption
    return .expr e
  | apply op left right => do
    let left ← s.expr? left
    let right ← s.operand? right
    let e ← (left.apply op right).toOption
    return .expr e
  | member operand relation => do
    let e ← s.expr? operand
    let r ← s.relation? relation
    let e ← (e.isIn r).toOption
    return .expr e
  | count operand => do
    let e ← s.expr? operand
    return .expr e.count
  | avg operand => do
    let e ← s.expr? operand
    let e ← e.avg.toOption
    return .expr e
  | project relation columns => do
    let r ← s.relation? relation
    let columns ← s.named? columns
    let p ← (r.project columns).toOption
    return .relation p
  | restrict relation predicate => do
    let r ← s.relation? relation
    let predicate ← s.condition? predicate
    let f ← (r.restrict predicate).toOption
    return .relation f
  | join left right on => do
    let r ← s.relation? left
    let other ← s.relation? right
    let on ← s.expr? on
    let j ← (r.join other on).toOption
    return .relation j
  | group relation key => do
    let r ← s.relation? relation
    let key ← s.expr? key
    let g ← (r.group key).toOption
    return .relation g
  | order relation key => do
    let r ← s.relation? relation
    let key ← s.expr? key
    let o ← (r.order key).toOption
    return .relation o

namespace Workbench

def step (s : Workbench) (c : Call) : Workbench := ⟨s.next.next, s.made ++ [c.run s]⟩

def run (s : Workbench) (calls : List Call) : Workbench := calls.foldl step s

end Workbench

/-! ## requests -/

/-- a statement to compile; rows and conditions are given by arguments -/
inductive Request where
  | select (relation : Nat) (rename : Bool)
  | create (relation : Nat)
  | drop (relation : Nat)
  | insert (relation : Nat) (rows : List (List (String × Argument)))
  | update (relation : Nat) (row : List (String × Argument)) (condition : Option Argument)
  | remove (relation : Nat) (condition : Option Argument)

def Workbench.row? (s : Workbench) (row : List (String × Argument)) : Option Row :=
  (s.named? row).map OrderedMap.ofList

def Request.command? (s : Workbench) : Request → Option Command
  | select relation rename => (s.relation? relation).map (Command.select · rename)
  | create relation => (s.relation? relation).map Command.create
  | drop relation => (s.relation? relation).map Command.drop
  | insert relation rows => do
    let r ← s.relation? relation
    let rows ← rows.mapM s.row?
    return .insert r rows
  | update relation row condition => do
    let r ← s.relation? relation
    let row ← s.row? row
    let condition ← s.condition? condition
    return .update r row condition
  | remove relation condition => do
    let r ← s.relation? relation
    let condition ← s.condition? condition
    return .remove r condition

/-- calls of builders, and the statement asked for after them -/
structure Program where
  calls : List Call
  request : Request

namespace Program

def command? (p : Program) : Option Command := p.request.command? (Workbench.start.run p.calls)

/-- the statement of a program in a dialect, if every step on the way to it succeeds -/
def compile (d : Dialect) (p : Program) : Option Statement := do
  let c ← p.command?
  (c.compile d).toOption

end Program

end TableAlgebra
