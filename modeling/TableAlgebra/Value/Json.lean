import TableAlgebra.Json.Record
import TableAlgebra.Json.Value
import TableAlgebra.Qualifiers

/-!
# Values and column options in JSON

A value is written without a mark of its kind, so reading it back tries the kinds in turn: truth value,
64-bit integer, double, string.  A double is always written with a point or an exponent, which keeps it
apart from an integer; infinities and NaN have no numeral.
-/

namespace TableAlgebra

-- powers of numbers are those of core, whatever else is imported
attribute [local instance (1100)] instPowNat

namespace Value

def toJson : Value → Json
  | bool b => .bool b
  | int i => .number (.integer i.toInt)
  | float x => .number (.float x)
  | string s => .string s

/-- The value of a number: an integer that fits 64 bits with a sign, else a double. -/
def ofNumber : JsonNumber → Value
  | .integer i =>
    if -(2 ^ (63 : Nat)) ≤ i ∧ i < 2 ^ (63 : Nat) then int (Int64.ofInt i) else float (Binary64.ofInt i)
  | .float x => float x

def ofWritten? : Written → Option Value
  | .bool b => some (bool b)
  | .number n => n.toNumber?.map ofNumber
  | .string units => (decodeUnits? units).map fun cs => string (String.ofList cs)
  | _ => none

end Value

namespace Qualifiers

def fieldNames : List String := ["unique", "auto_increment", "primary_key", "not_null", "default"]

def toJson (q : Qualifiers) : Json :=
  .ofPairs ([
    ("unique", .bool q.unique),
    ("auto_increment", .bool q.autoIncrement),
    ("primary_key", .bool q.primaryKey),
    ("not_null", .bool q.notNull)] ++
    match q.default with
    | some v => [("default", v.toJson)]
    | none => [])

/-- a default: null stands for none -/
def readDefault? : Written → Option (Option Value)
  | .null => some none
  | w => (Value.ofWritten? w).map some

/-- the column options a part stands for; a flag that is missing is not set -/
def ofWritten? (w : Written) : Option Qualifiers := do
  let [unique, autoIncrement, primaryKey, notNull, default] ← w.fields? fieldNames | none
  return {
    unique := ← Written.fieldOr? Written.bool? false unique
    autoIncrement := ← Written.fieldOr? Written.bool? false autoIncrement
    primaryKey := ← Written.fieldOr? Written.bool? false primaryKey
    notNull := ← Written.fieldOr? Written.bool? false notNull
    default := ← Written.fieldOr? readDefault? none default }

def parse? (text : String) : Option Qualifiers := (Written.parse? text).bind ofWritten?

end Qualifiers

def Value.parse? (text : String) : Option Value := (Written.parse? text).bind Value.ofWritten?

end TableAlgebra
