import TableAlgebra.Text.CaseTable
import TableAlgebra.Text.Ranges

/-!
# Lower case

The lower-case form of a text by the full Unicode mapping.  Every character is mapped on its own but
two: the dotted capital I becomes an i and a combining dot, and the capital sigma becomes the final form
at the end of a word, which is where a letter with case stands before it and none after it, marks passed
over.
-/

namespace TableAlgebra

namespace LetterCase

def isCased (c : Char) : Bool := inRanges casedRanges c.toNat

/-- a mark or sign passed over when looking for a neighbouring letter -/
def isIgnorable (c : Char) : Bool := inRanges ignorableRanges c.toNat

def CaseRange.holds (r : CaseRange) (n : Nat) : Bool :=
  r.first ≤ n && n ≤ r.last && (n - r.first) % r.step == 0

/-- the lower-case form of a character outside of ASCII, on its own -/
def lowerWide (c : Char) : List Char :=
  if c == 'İ' then ['i', '\u0307']
  else
    match lowerRanges.find? (·.holds c.toNat) with
    | some r => [Char.ofNat (c.toNat + r.delta).toNat]
    | none => [c]

def lowerChar (c : Char) : List Char :=
  if c.toNat < 0x80 then [c.toLower] else lowerWide c

/-- the next character that is not passed over is a letter with case -/
def meetsCased (cs : List Char) : Bool :=
  match cs.dropWhile isIgnorable with
  | c :: _ => isCased c
  | [] => false

/-- the lower-case form of `rest`, where `before` is the text in front of it read backwards -/
def lowerAfter : List Char → List Char → List Char
  | _, [] => []
  | before, c :: rest =>
    (if c == 'Σ' then [if meetsCased before && !meetsCased rest then 'ς' else 'σ']
      else lowerChar c) ++ lowerAfter (c :: before) rest

end LetterCase

def lowercase (text : String) : String :=
  String.ofList (LetterCase.lowerAfter [] text.toList)

end TableAlgebra
