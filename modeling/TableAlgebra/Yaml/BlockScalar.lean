import TableAlgebra.Yaml.Scalar

/-!
# Block scalars

Scalars that take up the lines after their sign: literal ones keep their line breaks, folded ones read a
single break between two lines as a blank.  The first line that is not empty tells the indentation,
unless a digit after the sign does.
-/

namespace TableAlgebra.Yaml

/-- which line breaks at the end of a block scalar are kept: none, the first, or all -/
inductive Chomping where
  | strip
  | clip
  | keep
  deriving DecidableEq, Inhabited

/-! ## the header -/

def readChomping : List Spot → Chomping × List Spot
  | [] => (.clip, [])
  | s :: rest =>
    if s.char == '+' then (.keep, rest)
    else if s.char == '-' then (.strip, rest)
    else (.clip, s :: rest)

/-- the digit of indentation at the front of the text, which may not be zero; zero if there is none -/
def readIncrement? : List Spot → Option (Nat × List Spot)
  | [] => some (0, [])
  | s :: rest =>
    if s.char == '0' then none
    else if s.char.isDigit then some (s.char.toNat - '0'.toNat, rest)
    else some (0, s :: rest)

/-- What follows the sign of a block scalar on its line, in either order: chomping and indentation, then
perhaps a comment.  Gives both and the lines after it. -/
def readBlockHeader? (text : List Spot) : Option (Chomping × Nat × List Spot) := do
  let (chomping, text) := readChomping text
  let (increment, text) ← readIncrement? text
  let (chomping, text) := if chomping == .clip then readChomping text else (chomping, text)
  return (chomping, increment, ← endLine? text)

/-! ## the lines -/

/-- The greatest indentation among the empty lines and the first line that is not empty; `column` spaces
have been passed on this line, and `most` is the greatest so far.  A tab there is refused. -/
def blockIndent? (column most : Nat) : List Spot → Option Nat
  | [] => some (max most column)
  | s :: rest =>
    if s.char == ' ' then blockIndent? (column + 1) most rest
    else if s.char == '\t' then none
    else if isBreak s.char then blockIndent? 0 (max most column) rest
    else some (max most column)

/-- What has been read of a block scalar: its text, the break that ended its last line and the breaks of
empty lines after that, both backwards, and whether that line began with a blank. -/
structure BlockLines where
  text : List Char := []
  ending : List Char := []
  empties : List Char := []
  indented : Bool := false

namespace BlockLines

/-- Goes on to a line, which begins with a blank or not.  When folding, a line feed between two lines
that begin with none is left out, and a blank stands for it if no empty line does. -/
def openLine (folded blank : Bool) (b : BlockLines) : BlockLines :=
  let text :=
    if folded && b.ending == ['\n'] && !b.indented && !blank then
      if b.empties.isEmpty then ' ' :: b.text else b.text
    else b.ending ++ b.text
  { text := b.empties ++ text, indented := blank }

def finish (chomping : Chomping) (b : BlockLines) : List Char :=
  match chomping with
  | .strip => b.text.reverse
  | .clip => (b.ending ++ b.text).reverse
  | .keep => (b.empties ++ (b.ending ++ b.text)).reverse

end BlockLines

/-- The lines indented by `indent`, and the text after them.  `inLine` says that the indentation of this
line has been passed. -/
def readBlockLines? (folded : Bool) (indent : Nat) (inLine : Bool) (b : BlockLines) :
    List Spot → Option (BlockLines × List Spot)
  | [] => some (b, [])
  | s :: rest =>
    if inLine then
      if isBreak s.char then
        readBlockLines? folded indent false { b with ending := [s.char], empties := [] } rest
      else readBlockLines? folded indent true { b with text := s.char :: b.text } rest
    else if isBreak s.char then
      readBlockLines? folded indent false { b with empties := s.char :: b.empties } rest
    else if s.column < indent then
      if s.char == ' ' then readBlockLines? folded indent false b rest
      else if s.char == '\t' then none
      else some (b, s :: rest)
    else
      let b := b.openLine folded (isSpace s.char)
      readBlockLines? folded indent true { b with text := s.char :: b.text } rest

/-- A block scalar after its sign, and the text after it; `level` is one more than the column of the
collection that it stands in, and zero outside of all. -/
def readBlockScalar? (folded : Bool) (level : Nat) (text : List Spot) :
    Option (List Char × List Spot) := do
  let (chomping, increment, lines) ← readBlockHeader? text
  let indent ←
    if increment == 0 then (blockIndent? 0 0 lines).map fun most => max most (max level 1)
    else some (level - 1 + increment)
  let (b, rest) ← readBlockLines? folded indent false {} lines
  return (b.finish chomping, rest)

end TableAlgebra.Yaml
