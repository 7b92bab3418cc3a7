/-!
# Hexadecimal digits

Written in lower case and read in either case, one by one or as bytes of two digits.
-/

namespace TableAlgebra

def hexDigit (n : Nat) : Char :=
  if n < 10 then Char.ofNat ('0'.toNat + n) else Char.ofNat ('a'.toNat + (n - 10))

def hexValue? (c : Char) : Option Nat :=
  if '0' ≤ c && c ≤ '9' then some (c.toNat - '0'.toNat)
  else if 'a' ≤ c && c ≤ 'f' then some (c.toNat - 'a'.toNat + 10)
  else if 'A' ≤ c && c ≤ 'F' then some (c.toNat - 'A'.toNat + 10)
  else none

/-- bytes written with two digits each -/
def hexBytes? : List Char → Option (List UInt8)
  | [] => some []
  | a :: b :: cs => do
    let a ← hexValue? a
    let b ← hexValue? b
    return UInt8.ofNat (16 * a + b) :: (← hexBytes? cs)
  | _ => none

end TableAlgebra
