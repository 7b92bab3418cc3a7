import TableAlgebra.Text.Blank
import TableAlgebra.Text.Hex

/-!
# Signs of patterns

The smallest parts of a pattern: a character that stands for itself, an escape, or one of the signs for
any character and for the ends of a line.  Where a pattern is written with spaces, blanks and comments
may stand between its signs, and between the parts of an escape.
-/

namespace TableAlgebra

/-! ## spaces -/

/-- What is left after blanks and comments.  A comment goes from a number sign to the end of its line;
`comment` says that one is open. -/
def dropSpace : (comment : Bool) → List Char → List Char
  | _, [] => []
  | true, c :: cs => dropSpace (c != '\n') cs
  | false, c :: cs =>
    if isBlank c then dropSpace false cs else if c == '#' then dropSpace true cs else c :: cs

def skipSpace (spaced : Bool) (cs : List Char) : List Char :=
  if spaced then dropSpace false cs else cs

theorem skipSpace_false (cs : List Char) : skipSpace false cs = cs := rfl

/-- nothing is put in front -/
theorem dropSpace_suffix (comment : Bool) (cs : List Char) : dropSpace comment cs <:+ cs := by
  induction cs generalizing comment with
  | nil => cases comment <;> exact List.suffix_refl []
  | cons c cs ih =>
    cases comment
    · unfold dropSpace
      split
      · exact (ih false).trans (List.suffix_cons c cs)
      split
      · exact (ih true).trans (List.suffix_cons c cs)
      · exact List.suffix_refl _
    · exact (ih _).trans (List.suffix_cons c cs)

/-! ## signs -/

/-- a part of a pattern that is no operator -/
inductive PatternSign where
  /-- a character -/
  | char (c : Char)
  /-- a character written as a byte, with two hexadecimal digits -/
  | byte (c : Char)
  /-- any character but the end of a line -/
  | any
  /-- digits, blanks or the characters of words, or all but those -/
  | kind (negated : Bool)
  /-- the characters of a general category, or all but those -/
  | category
  /-- the beginning or the end of a line or of the text -/
  | bound
  /-- a place that is, or is not, at the edge of a word -/
  | edge
  deriving DecidableEq

namespace PatternSign

def char? : PatternSign → Option Char
  | char c => some c
  | byte c => some c
  | _ => none

/-- The sign can be matched.  Where bytes are matched instead of characters, nothing may match a part of
a character; where characters are, the edges of words are out of reach. -/
def fits (unicode : Bool) : PatternSign → Bool
  | char _ | bound => true
  | byte c => unicode || c.toNat < 0x80
  | any | category => unicode
  | kind negated => unicode || !negated
  | edge => !unicode

end PatternSign

/-! ## escapes -/

def hexDigits? (spaced : Bool) : Nat → List Char → Option (List Nat × List Char)
  | 0, cs => some ([], cs)
  | n + 1, cs =>
    match skipSpace spaced cs with
    | [] => none
    | c :: cs => do
      let v ← hexValue? c
      let (vs, cs) ← hexDigits? spaced n cs
      return (v :: vs, cs)

/-- the character with the code point that so many hexadecimal digits give, and what comes after them -/
def codePoint? (spaced : Bool) (digits : Nat) (cs : List Char) : Option (Char × List Char) := do
  let (vs, cs) ← hexDigits? spaced digits cs
  let n := vs.foldl (fun n v => 16 * n + v) 0
  if n.isValidChar then some (Char.ofNat n, cs) else none

/-- the sign of a backslash and a single character -/
def letterSign? (c : Char) : Option PatternSign :=
  if "dsw".toList.contains c then some (.kind false)
  else if "DSW".toList.contains c then some (.kind true)
  else if c == 'A' || c == 'z' then some .bound
  else if "bB<>".toList.contains c then some .edge
  else if c == 'a' then some (.char '\x07')
  else if c == 'f' then some (.char '\x0C')
  else if c == 't' then some (.char '\t')
  else if c == 'n' then some (.char '\n')
  else if c == 'r' then some (.char '\r')
  else if c == 'v' then some (.char '\x0B')
  else if c.toNat < 0x80 && !c.isAlphanum then some (.char c)
  else none

/-- The sign that a backslash begins, and what comes after it.  A general category has a single letter,
in either case. -/
def escape? (spaced : Bool) : List Char → Option (PatternSign × List Char)
  | [] => none
  | c :: cs =>
    if c == 'x' then (codePoint? spaced 2 cs).map fun (c, cs) => (.byte c, cs)
    else if c == 'u' then (codePoint? spaced 4 cs).map fun (c, cs) => (.char c, cs)
    else if c == 'U' then (codePoint? spaced 8 cs).map fun (c, cs) => (.char c, cs)
    else if c == 'p' || c == 'P' then
      match skipSpace spaced cs with
      | [] => none
      | c :: cs => if "CLMNPSZclmnpsz".toList.contains c then some (.category, cs) else none
    else (letterSign? c).map fun sign => (sign, cs)

end TableAlgebra
