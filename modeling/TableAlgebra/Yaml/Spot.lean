/-!
# Characters of a document

The text of a document as a list of characters that know where they stand.  Line breaks that mean the
same are made one character first, so that every break is one spot.  A column counts characters from the
start of a line, an offset counts the bytes before the character; both are read off the spot, and no
reader has to keep count.
-/

namespace TableAlgebra.Yaml

/-! ## characters -/

/-- Characters that no document holds: controls other than tabs and line breaks, and the two
non-characters. -/
def isForbidden (c : Char) : Bool :=
  let n := c.toNat
  (n < 0x20 && n != 0x09 && n != 0x0A && n != 0x0D) || (0x7F ≤ n && n < 0xA0 && n != 0x85) ||
    n == 0xFFFE || n == 0xFFFF

def isSpace (c : Char) : Bool := c == ' ' || c == '\t'

/-- a line break, once those that mean the same are one character -/
def isBreak (c : Char) : Bool := c == '\n' || c == '\u2028' || c == '\u2029'

def isGap (c : Char) : Bool := isSpace c || isBreak c

/-- the characters that have a meaning inside of flow collections -/
def isFlowIndicator (c : Char) : Bool :=
  c == ',' || c == '[' || c == ']' || c == '\x7b' || c == '\x7d'

/-- Every line break as one character: a carriage return, a line feed, both together and the next-line
sign are a line feed; the separators of lines and of paragraphs stay what they are. -/
def unifyBreaks : List Char → List Char
  | [] => []
  | '\r' :: '\n' :: cs => '\n' :: unifyBreaks cs
  | c :: cs => (if c == '\r' || c == '\u0085' then '\n' else c) :: unifyBreaks cs

/-! ## spots -/

/-- a character and where it stands; the offset is in bytes -/
structure Spot where
  char : Char
  line : Nat
  column : Nat
  offset : Nat
  deriving DecidableEq, Inhabited

def spotsFrom (line column offset : Nat) : List Char → List Spot
  | [] => []
  | c :: cs =>
    ⟨c, line, column, offset⟩ ::
      if isBreak c then spotsFrom (line + 1) 0 (offset + c.utf8Size) cs
      else spotsFrom line (column + 1) (offset + c.utf8Size) cs

def spots (cs : List Char) : List Spot := spotsFrom 0 0 0 cs

theorem map_char_spotsFrom (line column offset : Nat) (cs : List Char) :
    (spotsFrom line column offset cs).map Spot.char = cs := by
  induction cs generalizing line column offset with
  | nil => rfl
  | cons c cs ih => simp only [spotsFrom]; split <;> simp [ih]

/-- the spots are the text -/
theorem map_char_spots (cs : List Char) : (spots cs).map Spot.char = cs :=
  map_char_spotsFrom 0 0 0 cs

def opensWith (c : Char) : List Spot → Bool
  | [] => false
  | s :: _ => s.char == c

def endsWord : List Spot → Bool
  | [] => true
  | s :: _ => isGap s.char

/-- a line begins here with the character three times and nothing or a gap after it -/
def isMarkerOf (c : Char) : List Spot → Bool
  | x :: y :: z :: rest =>
    x.column == 0 && x.char == c && y.char == c && z.char == c && endsWord rest
  | _ => false

/-- a line begins here that opens or closes a document -/
def isMarker (text : List Spot) : Bool := isMarkerOf '-' text || isMarkerOf '.' text

/-! ## gaps -/

def skipSpaces (text : List Spot) : List Spot := text.dropWhile fun s => isSpace s.char

/-- the text on the next lines, if nothing is left of this one but blanks and a comment -/
def endLine? (text : List Spot) : Option (List Spot) :=
  let text := skipSpaces text
  let text := if opensWith '#' text then text.dropWhile fun s => !isBreak s.char else text
  match text with
  | [] => some []
  | s :: rest => if isBreak s.char then some rest else none

/-- The text after blanks, line breaks and comments, and whether a key may stand there.  Outside of flow
collections a new line may begin with a key, and a tab is a blank only where no key may stand.  A
byte-order mark may begin a line. -/
def skipGap (flow keyAllowed comment : Bool) : List Spot → Bool × List Spot
  | [] => (keyAllowed, [])
  | s :: rest =>
    if isBreak s.char then skipGap flow (keyAllowed || !flow) false rest
    else if comment then skipGap flow keyAllowed true rest
    else if s.char == '#' then skipGap flow keyAllowed true rest
    else if s.char == ' ' || (s.char == '\t' && (flow || !keyAllowed)) then
      skipGap flow keyAllowed false rest
    else if s.char == '\uFEFF' && s.column == 0 then skipGap flow keyAllowed false rest
    else (keyAllowed, s :: rest)

end TableAlgebra.Yaml
