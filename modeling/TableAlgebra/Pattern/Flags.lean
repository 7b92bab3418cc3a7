import TableAlgebra.Text.Pieces

/-!
# Flags of patterns

Flags are single letters.  A change of flags names those that are switched on and, after a hyphen, those
that are switched off.  Two of them decide which patterns are accepted: `u`, for characters instead of
bytes, and `x`, for blanks and comments that do not count.
-/

namespace TableAlgebra

/-- the flags that are switched on, and those that are switched off -/
structure FlagChange where
  on : List Char := []
  off : List Char := []
  deriving DecidableEq

namespace FlagChange

def letters : List Char := "imsURux".toList

/-- only letters that are flags occur, and each of them once -/
def isValid (f : FlagChange) : Bool :=
  (f.on ++ f.off).all letters.contains && decide (f.on ++ f.off).Nodup

/-- the change that a text stands for; a hyphen has a flag behind it -/
def ofText? (cs : List Char) : Option FlagChange :=
  match pieces '-' cs with
  | [on] => if isValid { on } then some { on } else none
  | [on, off] => if !off.isEmpty && isValid { on, off } then some { on, off } else none
  | _ => none

def isEmpty (f : FlagChange) : Bool := f.on.isEmpty && f.off.isEmpty

def apply (f : FlagChange) (flag : Char) (state : Bool) : Bool :=
  if f.on.contains flag then true else !f.off.contains flag && state

/-- an empty change leaves every flag as it is -/
theorem apply_empty (flag : Char) (state : Bool) : apply {} flag state = state := by
  simp [apply]

end FlagChange

end TableAlgebra
