/-!
# Serial numbers

Some declarations are told apart by when they were made and not by what they say: two domains of one
name and one base are different domains, and the columns of two tables are never the same.  Such a
declaration carries a serial number, handed out once, so that comparing two of them needs nothing but
their contents.
-/

namespace TableAlgebra

/-- a number handed out to one declaration only -/
structure Serial where
  number : Nat
  deriving DecidableEq, Inhabited, Repr

def Serial.next (s : Serial) : Serial := ⟨s.number + 1⟩

theorem Serial.next_ne (s : Serial) : s.next ≠ s := by
  intro h
  have : s.number + 1 = s.number := congrArg Serial.number h
  omega

end TableAlgebra
