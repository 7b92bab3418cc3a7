import TableAlgebra.Qualifiers
import TableAlgebra.Serial
import TableAlgebra.Text.Identifier

/-!
# Types

A type is a base type or a domain.  A domain is a named alias of a base type with default column
options; it is told apart by its serial number, so two domains declared alike are still two types.

Types are ordered by what flows into what: an integer may stand where a number is wanted, and a value
of the base type where the domain is wanted.  `join` gives the type in which two others meet.
-/

namespace TableAlgebra

/-! ## base types -/

/-- a primitive type, or an enumeration with its labels in order -/
inductive BaseType where
  | integer
  | number
  | string
  | boolean
  | enum (labels : List String)
  deriving DecidableEq, Inhabited

/-- which of the base types one is, whatever the labels of an enumeration -/
inductive BaseKind where
  | integer
  | number
  | string
  | boolean
  | enum
  deriving DecidableEq, Inhabited

namespace BaseType

def kind : BaseType → BaseKind
  | integer => .integer
  | number => .number
  | string => .string
  | boolean => .boolean
  | enum _ => .enum

def name : BaseType → String
  | integer => "integer"
  | number => "number"
  | string => "string"
  | boolean => "boolean"
  | enum _ => "enum"

def labels : BaseType → List String
  | enum labels => labels
  | _ => []

/-- a value of type `b` may stand where `a` is wanted: they are of one kind, or `a` is number and `b`
integer -/
def covers (a b : BaseType) : Bool :=
  a.kind == b.kind || (a.kind == .number && b.kind == .integer)

/-- the wider of two base types, the left one if they are equally wide -/
def join (a b : BaseType) : Option BaseType :=
  if a.covers b then some a
  else if b.covers a then some b
  else none

def isNumeric (b : BaseType) : Bool :=
  b.kind == .integer || b.kind == .number

theorem covers_self (a : BaseType) : a.covers a = true := by simp [covers]

theorem join_self (a : BaseType) : a.join a = some a := by simp [join, covers_self]

end BaseType

/-! ## domains and types -/

/-- a named alias of a base type, with the column options it hands down -/
structure Domain where
  serial : Serial
  name : String
  base : BaseType
  defaults : Qualifiers
  deriving DecidableEq, Inhabited

inductive DataType where
  | base (type : BaseType)
  | domain (domain : Domain)
  deriving DecidableEq, Inhabited

namespace DataType

@[match_pattern] abbrev integer : DataType := .base .integer

@[match_pattern] abbrev number : DataType := .base .number

@[match_pattern] abbrev string : DataType := .base .string

@[match_pattern] abbrev boolean : DataType := .base .boolean

/-- the base type underneath, looking through a domain -/
def underlying : DataType → BaseType
  | base type => type
  | domain d => d.base

def name : DataType → String
  | base type => type.name
  | domain d => d.name

def isBoolean (t : DataType) : Bool := t.underlying.kind == .boolean

def isInteger (t : DataType) : Bool := t.underlying.kind == .integer

def isNumeric (t : DataType) : Bool := t.underlying.isNumeric

/-- The column options a type hands down: a domain its own, a base type none. -/
def defaults : DataType → Qualifiers
  | base _ => {}
  | domain d => d.defaults

/-- The type in which two types meet.  Two domains meet only if they are one.  A domain meets a base
type that its own base covers, in the domain: an integer may flow into a domain over numbers, but a
number not into a domain over integers. -/
def join : DataType → DataType → Option DataType
  | domain x, domain y => if x = y then some (domain x) else none
  | domain x, base b => if x.base.covers b then some (domain x) else none
  | base a, domain y => if y.base.covers a then some (domain y) else none
  | base a, base b => (a.join b).map base

def joinable (a b : DataType) : Bool := (a.join b).isSome

theorem join_self (t : DataType) : t.join t = some t := by
  cases t <;> simp [join, BaseType.join_self]

end DataType

/-- a label of a domain over an enumeration, as a value of that domain -/
structure EnumValue where
  domain : Domain
  label : String
  deriving DecidableEq, Inhabited

end TableAlgebra
