import TableAlgebra.Number.Binary64

/-!
# Shortest decimals

The shortest decimal that reads back as a given double.  The decimals that read back are those in an
interval around the value, half a unit in the last place to each side.  On each grid of multiples
of a power of ten, from coarse to fine, only the two neighbours of the value need to be tried: if any
point of the grid lies in the interval, so does one of them.  The first grid with a hit gives the
fewest digits, and of two hits the nearer is taken.
-/

namespace TableAlgebra

-- powers of numbers are those of core, whatever else is imported
attribute [local instance (1100)] instPowNat

/-- which of two equally near neighbours is taken: the larger, or the one whose last digit is even -/
inductive TieRule where
  | up
  | even
  deriving DecidableEq, Repr

namespace Binary64

/-- The magnitudes that round to a double, over one denominator.  The ends belong to it when the
significand is even, since a tie goes to the even neighbour. -/
structure Interval where
  low : Nat
  value : Nat
  high : Nat
  denominator : Nat
  closed : Bool
  deriving Repr

/-- The interval around a finite double that is not zero.  Below a power of two the doubles lie twice
as close, so there the lower half is half as wide. -/
def interval (x : Binary64) : Interval :=
  let m := x.significand
  let below := if m == 2 ^ (52 : Nat) && x.biasedExponent > 1 then 1 else 2
  let unit := 2 ^ x.exponent.toNat
  { low := (4 * m - below) * unit
    value := 4 * m * unit
    high := (4 * m + 2) * unit
    denominator := 4 * x.denominator
    closed := m % 2 == 0 }

def Interval.contains (i : Interval) (num den : Nat) : Bool :=
  let n := num * i.denominator
  if i.closed then i.low * den ≤ n && n ≤ i.high * den
  else i.low * den < n && n < i.high * den

/-- the multiple of `10 ^ k` chosen for the interval on that grid, in units of `10 ^ k` -/
def Interval.pick? (i : Interval) (tie : TieRule) (k : Int) : Option Nat :=
  let up := 10 ^ k.toNat
  let down := 10 ^ (-k).toNat
  let q := i.value * down / (i.denominator * up)
  let r := i.value * down % (i.denominator * up)
  let lower := i.contains (q * up) down
  let upper := i.contains ((q + 1) * up) down
  let pickUpper :=
    2 * r > i.denominator * up ||
      (2 * r == i.denominator * up && (tie == .up || q % 2 == 1))
  if lower && upper then some (if pickUpper then q + 1 else q)
  else if lower then some q
  else if upper then some (q + 1)
  else none

/-- the first grid with a hit, from the power of ten `k` downwards -/
def Interval.search (i : Interval) (tie : TieRule) : Nat → Int → Nat × Int
  | 0, k => (i.value * 10 ^ (-k).toNat / (i.denominator * 10 ^ k.toNat), k)
  | fuel + 1, k =>
    match i.pick? tie k with
    | some n => (n, k)
    | none => i.search tie fuel (k - 1)

/-- drops the zeros at the end of the digits -/
def trimZeros : Nat → Nat × Int → Nat × Int
  | 0, r => r
  | fuel + 1, (n, k) => if n % 10 == 0 && n != 0 then trimZeros fuel (n / 10, k + 1) else (n, k)

/-- A power of ten above the magnitude of a finite double: its binary exponent times log₁₀ 2,
rounded up. -/
def decimalTop (x : Binary64) : Int :=
  ((x.significand.log2 : Int) + x.exponent + 1) * 30103 / 100000 + 1

/-- Digits `n` and a power of ten `k` such that `n · 10 ^ k` is the shortest decimal that reads back as
the magnitude of `x`, and of those the nearest.  Seventeen digits always suffice; the three grids more
allow for the estimate of the first. -/
def shortest (x : Binary64) (tie : TieRule) : Nat × Int :=
  if x.significand == 0 then (0, 0)
  else trimZeros 20 (x.interval.search tie 20 x.decimalTop)

/-! ## positional text -/

def zeros (n : Nat) : String := String.ofList (List.replicate n '0')

/-- `digits · 10 ^ k` written without an exponent, and without a point when it is whole -/
def positional (digits : Nat) (k : Int) : String :=
  let ds := toString digits
  if 0 ≤ k then ds ++ (if digits == 0 then "" else zeros k.toNat)
  else
    let places := (-k).toNat
    if ds.length ≤ places then "0." ++ zeros (places - ds.length) ++ ds
    else
      let cs := ds.toList
      String.ofList (cs.take (cs.length - places)) ++ "."
        ++ String.ofList (cs.drop (cs.length - places))

def signText (x : Binary64) : String := if x.isNegative then "-" else ""

/-- The text of a number: the shortest digits that read back, larger ones first at a tie, never an
exponent; a whole number has no point. -/
def text (x : Binary64) : String :=
  if x.isNaN then "NaN"
  else if !x.isFinite then x.signText ++ "inf"
  else
    let (n, k) := x.shortest .up
    x.signText ++ positional n k

end Binary64

end TableAlgebra
