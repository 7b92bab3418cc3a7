import TableAlgebra.AlgebraError
import TableAlgebra.Text.Quoted

/-!
# Literals

A host value as it stands in an expression, with its type.  A double that is a whole number in the
range of 64-bit integers is the same literal as that integer.
-/

namespace TableAlgebra

-- powers of numbers are those of core, whatever else is imported
attribute [local instance (1100)] instPowNat

inductive Literal where
  | boolean (value : Bool)
  | integer (value : Int64)
  | number (value : Binary64)
  | string (value : String)
  | label (value : EnumValue)
  deriving DecidableEq, Inhabited

namespace Literal

def type : Literal → DataType
  | boolean _ => .boolean
  | integer _ => .integer
  | number _ => .number
  | string _ => .string
  | label v => .domain v.domain

/-- the text of a literal, strings and labels quoted -/
def text : Literal → String
  | boolean b => if b then "true" else "false"
  | integer i => toString i.toInt
  | number x => x.text
  | string s => quote s
  | label v => quote v.label

end Literal

/-- the integer of 64 bits a double stands for, if it stands for one: whole, and less than 2^63 in
magnitude -/
def Binary64.toInt64? (x : Binary64) : Option Int64 :=
  match x.toInt? with
  | some i => if i.natAbs < 2 ^ (63 : Nat) then some (Int64.ofInt i) else none
  | none => none

/-- the literal of a host value; infinities and NaN have none -/
def Value.toLiteral : Value → Except AlgebraError Literal
  | bool b => .ok (.boolean b)
  | int i => .ok (.integer i)
  | float x =>
    if !x.isFinite then .error (.invalidLiteral x)
    else
      match x.toInt64? with
      | some i => .ok (.integer i)
      | none => .ok (.number x)
  | string s => .ok (.string s)

end TableAlgebra
