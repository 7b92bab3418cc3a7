import TableAlgebra.Text.Pieces

/-!
# Paths

Places among all directories, and the texts that lead to them.  Of the parts of a path, those between its
slashes, a single point stays where it is, two points go up, and every other part is a name.
-/

namespace TableAlgebra

/-! ## places -/

/-- a directory that is there from the start: the root, or the directory so many steps above the working
directory -/
inductive Base where
  | root
  | above (steps : Nat)
  deriving DecidableEq, Inhabited

namespace Base

/-- the working directory -/
def here : Base := above 0

/-- the directory that a base lies in; the root lies in itself -/
def up : Base → Base
  | root => root
  | above steps => above (steps + 1)

end Base

/-- where names lead to from a base; the last of the names, the innermost, comes first -/
structure Location where
  base : Base
  names : List (List Char)
  deriving DecidableEq, Inhabited

namespace Location

/-- what has a name within a place -/
def within (place : Location) (name : List Char) : Location :=
  { place with names := name :: place.names }

def up : Location → Location
  | ⟨base, []⟩ => ⟨base.up, []⟩
  | ⟨base, _ :: names⟩ => ⟨base, names⟩

/-- the names that lead from the working directory down to a place, from the outside in; none if it lies
elsewhere -/
def namesFromHere? (place : Location) : Option (List String) :=
  if place.base = .here then some (place.names.reverse.map String.ofList) else none

theorem up_within (place : Location) (name : List Char) : (place.within name).up = place := rfl

end Location

/-! ## paths -/

/-- where a path begins, and its parts -/
structure Path where
  start : Base
  parts : List (List Char)
  deriving DecidableEq

def isPoint (part : List Char) : Bool := part == ['.']

def isPoints (part : List Char) : Bool := part == ['.', '.']

namespace Path

/-- The path of a text, which begins at the root if it begins with a slash.  Several slashes in a row are
like one.  The character NUL is in no path, and a path takes less than 4096 bytes. -/
def ofText? (text : String) : Option Path :=
  if text.toList.contains '\x00' || 4096 ≤ text.utf8ByteSize then none
  else
    some {
      start := if text.toList.head? == some '/' then .root else .here
      parts := (pieces '/' text.toList).filter fun part => !part.isEmpty }

end Path

end TableAlgebra
