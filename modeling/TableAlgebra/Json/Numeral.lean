import TableAlgebra.Number.Decimal
import TableAlgebra.Number.Shortest

/-!
# Numbers in JSON

A numeral is read as an integer if it has neither point nor exponent and fits 64 bits, signed or
unsigned; any other numeral is read as a double.  The double is computed in the short way: the digits
that fit 64 bits are gathered into a whole number, which is rounded, and one multiplication or division
by a power of ten, rounded again, puts the point in place.  The last bit may so differ from the nearest
double when there are more than fifteen digits or a large exponent.
-/

namespace TableAlgebra

-- powers of numbers are those of core, whatever else is imported
attribute [local instance (1100)] instPowNat

/-- A number as it is written: digits, digits after a point, and an exponent with its sign.  Without a
point there are no digits after it. -/
structure Numeral where
  negative : Bool
  whole : List Char
  places : List Char
  exponent : Option (Bool × List Char)
  deriving DecidableEq, Inhabited

/-- a number that a JSON text stands for -/
inductive JsonNumber where
  | integer (value : Int)
  | float (value : Binary64)
  deriving DecidableEq, Inhabited

namespace Numeral

def wordBound : Nat := 2 ^ (64 : Nat)

/-- appends digits to a number while it stays below 2^64; also the digits left over -/
def gather : Nat → List Char → Nat × List Char
  | n, [] => (n, [])
  | n, c :: cs =>
    if 10 * n + digitValue c < wordBound then gather (10 * n + digitValue c) cs else (n, c :: cs)

/-- the double nearest to a power of ten -/
def powerOfTen (k : Nat) : Binary64 := Binary64.ofRatio false (10 ^ k) 1

/-- Multiplies a double by a power of ten, dividing by 10^308 as often as the exponent is below -308;
`none` if the product is beyond the doubles.  Two such divisions take any 64-bit number to zero. -/
def scale : Nat → Binary64 → Int → Option Binary64
  | 0, x, _ => some x
  | fuel + 1, x, e =>
    if e.natAbs ≤ 308 then
      if 0 ≤ e then
        let product := x.mul (powerOfTen e.natAbs)
        if product.isFinite then some product else none
      else some (x.div (powerOfTen e.natAbs))
    else if x.isZero then some x
    else if 0 ≤ e then none
    else scale fuel (x.div (powerOfTen 308)) (e + 308)

def exponentBound : Nat := 2 ^ (31 : Nat) - 1

/-- The double a numeral stands for.  Digits before the point that do not fit are counted into the
exponent, digits after it are dropped.  An exponent of more than 31 bits gives zero if it is negative
or the digits are zero, and is refused otherwise. -/
def toFloat? (n : Numeral) : Option Binary64 :=
  let (whole, skipped) := gather 0 n.whole
  let (digits, dropped) := gather whole n.places
  let point : Int := (skipped.length : Int) - (n.places.length - dropped.length : Nat)
  let magnitude? :=
    match n.exponent with
    | none => scale 4 (Binary64.ofInt digits) point
    | some (negative, ds) =>
      let e := natOfDigits ds
      if exponentBound < e then
        if digits != 0 && !negative then none else some (Binary64.ofMagnitude false 0)
      else scale 4 (Binary64.ofInt digits) (if negative then point - e else point + e)
  magnitude?.map fun x => if n.negative then x.neg else x

/-- the integer a numeral stands for, if it is written as one and fits 64 bits; `-0` is no integer -/
def toInt? (n : Numeral) : Option Int :=
  if n.places.isEmpty && n.exponent.isNone then
    let digits := natOfDigits n.whole
    if n.negative then
      if digits != 0 && digits ≤ 2 ^ (63 : Nat) then some (-(digits : Int)) else none
    else if digits < wordBound then some digits
    else none
  else none

/-- the number a numeral stands for; `none` if it is beyond the doubles -/
def toNumber? (n : Numeral) : Option JsonNumber :=
  match n.toInt? with
  | some i => some (.integer i)
  | none => n.toFloat?.map .float

end Numeral

namespace Binary64

/-- one digit, a point if more follow, the rest, and a signed exponent -/
def scientific (digits : Nat) (exponent : Int) : String :=
  let cs := (toString digits).toList
  let mantissa := match cs with
    | c :: d :: ds => String.ofList (c :: '.' :: d :: ds)
    | cs => String.ofList cs
  mantissa ++ (if exponent < 0 then "e-" else "e+") ++ toString exponent.natAbs

/-- The text of a finite double in JSON: the shortest digits that read back, an even last digit at a
tie.  From 10^-5 on and below 10^16 it is written positionally, always with a point, and beyond that
with a signed exponent. -/
def jsonText (x : Binary64) : String :=
  let (n, k) := x.shortest .even
  let top : Int := ((toString n).length : Int) + k - 1
  x.signText ++
    if n == 0 then "0.0"
    else if -5 ≤ top ∧ top < 16 then positional n k ++ (if 0 ≤ k then ".0" else "")
    else scientific n top

end Binary64

end TableAlgebra
