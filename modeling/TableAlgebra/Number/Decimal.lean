import TableAlgebra.Number.Binary64

/-!
# Decimal numbers

`digits · 10 ^ exponent` with a sign, as written in a numeral, and the double nearest to it.
-/

namespace TableAlgebra

-- powers of numbers are those of core, whatever else is imported
attribute [local instance (1100)] instPowNat

/-- the number `± digits · 10 ^ exponent` -/
structure Decimal where
  negative : Bool
  digits : Nat
  exponent : Int
  deriving DecidableEq, Repr

namespace Decimal

/-- The double nearest to a decimal.  Beyond 10^310 every decimal is infinite and below 10^-330
every one is zero, so the power of ten is only formed between the two. -/
def toBinary64 (x : Decimal) : Binary64 :=
  let top : Int := ((toString x.digits).length : Int) + x.exponent
  if x.digits == 0 then Binary64.ofMagnitude x.negative 0
  else if top > 310 then Binary64.infinity x.negative
  else if top < -330 then Binary64.ofMagnitude x.negative 0
  else Binary64.ofRatio x.negative (x.digits * 10 ^ x.exponent.toNat) (10 ^ (-x.exponent).toNat)

end Decimal

/-! ## digits -/

def isDigit (c : Char) : Bool := '0' ≤ c && c ≤ '9'

def digitValue (c : Char) : Nat := c.toNat - '0'.toNat

def natOfDigits (cs : List Char) : Nat :=
  cs.foldl (fun n c => 10 * n + digitValue c) 0

theorem natOfDigits_nil : natOfDigits [] = 0 := rfl

theorem natOfDigits_append_singleton (cs : List Char) (c : Char) :
    natOfDigits (cs ++ [c]) = 10 * natOfDigits cs + digitValue c := by
  simp [natOfDigits]

/-- an optional sign and what follows it -/
def splitSign : List Char → Bool × List Char
  | '-' :: cs => (true, cs)
  | '+' :: cs => (false, cs)
  | cs => (false, cs)

/-- an exponent, `e` and an optionally signed row of digits, to the end of the text; no exponent
at all is the exponent zero -/
def readExponent? : List Char → Option Int
  | [] => some 0
  | c :: cs =>
    if c == 'e' || c == 'E' then
      let (negative, ds) := splitSign cs
      if ds.isEmpty || !ds.all isDigit then none
      else some (if negative then -(natOfDigits ds : Int) else natOfDigits ds)
    else none

/-- Reads `digits`, `digits.digits`, `digits.` or `.digits` with an optional exponent: at least one
digit, and nothing else in the text. -/
def Decimal.read? (negative : Bool) (cs : List Char) : Option Decimal :=
  let whole := cs.takeWhile isDigit
  let rest := cs.dropWhile isDigit
  let (part, rest) := match rest with
    | '.' :: ds => (ds.takeWhile isDigit, ds.dropWhile isDigit)
    | ds => ([], ds)
  if whole.isEmpty && part.isEmpty then none
  else
    (readExponent? rest).map fun e =>
      { negative, digits := natOfDigits (whole ++ part), exponent := e - part.length }

/-- the double a text stands for: an optionally signed decimal, `inf`, `infinity` or `nan`, the
words in any letter case -/
def Binary64.ofText? (text : String) : Option Binary64 :=
  let (negative, cs) := splitSign text.toList
  let word := String.ofList (cs.map Char.toLower)
  if word == "inf" || word == "infinity" then some (infinity negative)
  else if word == "nan" then some (nan negative)
  else (Decimal.read? negative cs).map Decimal.toBinary64

end TableAlgebra
