/-!
# Double-precision numbers

A double is its 64 bits.  Everything said about one goes through the exact dyadic value the bits
stand for, `± significand · 2 ^ exponent`, in natural-number arithmetic; no machine floating point
is involved, so every statement about a number is a statement about integers.
-/

namespace TableAlgebra

-- powers of numbers are those of core, whatever else is imported
attribute [local instance (1100)] instPowNat

/-- a double-precision number, given by its bits: sign, eleven exponent bits, 52 fraction bits -/
structure Binary64 where
  bits : UInt64
  deriving DecidableEq, Inhabited

namespace Binary64

/-! ## fields and classes -/

def isNegative (x : Binary64) : Bool :=
  decide (2 ^ (63 : Nat) ≤ x.bits.toNat)

def biasedExponent (x : Binary64) : Nat :=
  x.bits.toNat / 2 ^ (52 : Nat) % 2 ^ (11 : Nat)

def fraction (x : Binary64) : Nat :=
  x.bits.toNat % 2 ^ (52 : Nat)

/-- neither an infinity nor a NaN -/
def isFinite (x : Binary64) : Bool :=
  x.biasedExponent != 2047

def isNaN (x : Binary64) : Bool :=
  x.biasedExponent == 2047 && x.fraction != 0

/-- the whole number of which the value of a finite double is a power-of-two multiple -/
def significand (x : Binary64) : Nat :=
  if x.biasedExponent = 0 then x.fraction else 2 ^ (52 : Nat) + x.fraction

def exponent (x : Binary64) : Int :=
  (max x.biasedExponent 1 : Nat) - 1075

def isZero (x : Binary64) : Bool :=
  x.isFinite && x.significand == 0

def numerator (x : Binary64) : Nat :=
  x.significand * 2 ^ x.exponent.toNat

def denominator (x : Binary64) : Nat :=
  2 ^ (-x.exponent).toNat

/-- gives a magnitude the sign of `x` -/
def signed (x : Binary64) (magnitude : Nat) : Int :=
  if x.isNegative then -(magnitude : Int) else magnitude

/-- the integer a finite double stands for; `none` if it has a fractional part or is not finite.
Both zeros stand for `0`. -/
def toInt? (x : Binary64) : Option Int :=
  if x.isFinite && x.numerator % x.denominator == 0 then
    some (x.signed (x.numerator / x.denominator))
  else
    none

/-! ## rounding -/

/-- the double of the given sign with the given magnitude bits -/
def ofMagnitude (negative : Bool) (magnitude : Nat) : Binary64 :=
  ⟨UInt64.ofNat ((if negative then 2 ^ (63 : Nat) else 0) + magnitude)⟩

/-- the magnitude bits of infinity, the least that no finite double has -/
def infinityBits : Nat := 2047 * 2 ^ (52 : Nat)

def infinity (negative : Bool) : Binary64 := ofMagnitude negative infinityBits

def nan (negative : Bool) : Binary64 := ofMagnitude negative (2047 * 2 ^ (52 : Nat) + 2 ^ (51 : Nat))

/-- the quotient of two naturals, a half going to the even neighbour -/
def divEven (num den : Nat) : Nat :=
  let q := num / den
  let r := num % den
  if 2 * r > den || (2 * r == den && q % 2 == 1) then q + 1 else q

/-- how many units `2 ^ e` the fraction `num / den` holds, as a fraction again -/
def inUnits (num den : Nat) (e : Int) : Nat × Nat :=
  (num * 2 ^ (-e).toNat, den * 2 ^ e.toNat)

/-- The unit in the last place of `num / den`: the power of two, at least the least subnormal's,
that leaves at most 53 bits before the point. -/
def unitExponent (num den : Nat) : Int :=
  let e : Int := max ((num.log2 : Int) - den.log2 - 53) (-1074)
  let (n, d) := inUnits num den e
  if n / d < 2 ^ (53 : Nat) then e else e + 1

/-- The double nearest to `num / den`, a tie going to the even neighbour.  Counting magnitudes from
zero upwards numbers the doubles in order, so a count that rounds up to the next power of two needs
no special case, and one past the largest finite double is infinity. -/
def ofRatio (negative : Bool) (num den : Nat) : Binary64 :=
  if num == 0 then ofMagnitude negative 0
  else
    let e := unitExponent num den
    let (n, d) := inUnits num den e
    let magnitude := (e + 1074).toNat * 2 ^ (52 : Nat) + divEven n d
    ofMagnitude negative (min magnitude infinityBits)

def ofInt (n : Int) : Binary64 :=
  ofRatio (decide (n < 0)) n.natAbs 1

def mul (x y : Binary64) : Binary64 :=
  ofRatio (x.isNegative != y.isNegative) (x.numerator * y.numerator) (x.denominator * y.denominator)

def div (x y : Binary64) : Binary64 :=
  ofRatio (x.isNegative != y.isNegative) (x.numerator * y.denominator) (x.denominator * y.numerator)

/-- the same magnitude with the sign turned round -/
def neg (x : Binary64) : Binary64 :=
  ⟨x.bits ^^^ 0x8000000000000000⟩

end Binary64

end TableAlgebra
