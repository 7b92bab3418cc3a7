import TableAlgebra.Text.Hex
import TableAlgebra.Yaml.Spot

/-!
# Scalars

The text of a plain or quoted scalar.  It may run over several lines: a single line break between two
words is read as a blank, of more the first is left out, and the blanks around breaks do not count.
-/

namespace TableAlgebra.Yaml

inductive ScalarStyle where
  | plain
  | singleQuoted
  | doubleQuoted
  | literal
  | folded
  deriving DecidableEq, Inhabited

/-! ## gaps between words -/

/-- What stands between two words, read backwards: blanks only, or the line breaks among them, or the
line breaks after one that a backslash takes away. -/
inductive Gap where
  | blanks (cs : List Char)
  | breaks (cs : List Char)
  | joined (cs : List Char)

namespace Gap

def empty : Gap := blanks []

def isEmpty : Gap → Bool
  | blanks cs => cs.isEmpty
  | _ => false

def isBroken : Gap → Bool
  | blanks _ => false
  | _ => true

def push (c : Char) : Gap → Gap
  | blanks cs => if isBreak c then breaks [c] else blanks (c :: cs)
  | breaks cs => if isBreak c then breaks (c :: cs) else breaks cs
  | joined cs => if isBreak c then joined (c :: cs) else joined cs

/-- Line breaks as text: a single line feed is a blank, of more breaks a first line feed is left out.
Any other break is kept. -/
def fold : List Char → List Char
  | ['\n'] => [' ']
  | '\n' :: cs => cs
  | cs => cs

def text : Gap → List Char
  | blanks cs => cs.reverse
  | breaks cs => fold cs.reverse
  | joined cs => cs.reverse

end Gap

/-! ## quoted scalars -/

/-- A single-quoted scalar after its opening quote, and the text after it.  `word` is what has been read,
backwards, and `gap` what stands after it. -/
def readSingleQuoted? (word : List Char) (gap : Gap) : List Spot → Option (List Char × List Spot)
  | [] => none
  | s :: rest =>
    if isGap s.char then readSingleQuoted? word (gap.push s.char) rest
    else if isMarker (s :: rest) then none
    else
      let word := gap.text.reverse ++ word
      if s.char != '\'' then readSingleQuoted? (s.char :: word) .empty rest
      else
        match rest with
        | [] => some (word.reverse, [])
        | t :: after =>
          if t.char == '\'' then readSingleQuoted? ('\'' :: word) .empty after
          else some (word.reverse, t :: after)

def escaped? : Char → Option Char
  | '0' => some '\x00'
  | 'a' => some '\x07'
  | 'b' => some '\x08'
  | 't' => some '\t'
  | '\t' => some '\t'
  | 'n' => some '\n'
  | 'v' => some '\x0b'
  | 'f' => some '\x0c'
  | 'r' => some '\r'
  | 'e' => some '\x1b'
  | ' ' => some ' '
  | '"' => some '"'
  | '/' => some '/'
  | '\\' => some '\\'
  | 'N' => some '\u0085'
  | '_' => some '\u00a0'
  | 'L' => some '\u2028'
  | 'P' => some '\u2029'
  | _ => none

/-- how many hexadecimal digits follow the letter of an escape -/
def escapeWidth : Char → Nat
  | 'x' => 2
  | 'u' => 4
  | 'U' => 8
  | _ => 0

def hexChar? (cs : List Char) : Option Char := do
  let digits ← cs.mapM hexValue?
  let n := digits.foldl (fun n d => 16 * n + d) 0
  if h : n.isValidChar then some (Char.ofNatAux n h) else none

def escape? (letter : Char) (text : List Spot) : Option Char :=
  let width := escapeWidth letter
  if width == 0 then escaped? letter
  else if text.length < width then none
  else hexChar? ((text.take width).map Spot.char)

/-- A double-quoted scalar after its opening quote, and the text after it.  `word` is what has been read,
backwards, and `gap` what stands after it.  A backslash at the end of a line takes the break away. -/
def readDoubleQuoted? (word : List Char) (gap : Gap) : List Spot → Option (List Char × List Spot)
  | [] => none
  | s :: rest =>
    if isGap s.char then readDoubleQuoted? word (gap.push s.char) rest
    else if isMarker (s :: rest) then none
    else
      let word := gap.text.reverse ++ word
      if s.char == '"' then some (word.reverse, rest)
      else if s.char != '\\' then readDoubleQuoted? (s.char :: word) .empty rest
      else
        match rest with
        | [] => none
        | letter :: rest =>
          if isBreak letter.char then readDoubleQuoted? word (.joined []) rest
          else
            match escape? letter.char (rest.take 8) with
            | none => none
            | some c =>
              readDoubleQuoted? (c :: word) .empty (rest.drop (escapeWidth letter.char))
termination_by text => text.length

/-! ## plain scalars -/

/-- what has been read of a plain scalar when it ends -/
structure PlainScalar where
  text : List Char
  endsLine : Bool
  rest : List Spot

/-- a plain scalar ends before its next word: at a line not indented by `least`, at a line that opens or
closes a document, and at a comment -/
def endsBeforeWord (flow : Bool) (least : Nat) (text : List Spot) : Bool :=
  match text with
  | [] => true
  | s :: _ => (!flow && s.column < least) || isMarker text || s.char == '#'

/-- a plain scalar ends before the character, even inside of a word: at the colon of a key and, in a flow
collection, at an indicator -/
def endsBefore (flow : Bool) (s : Spot) (rest : List Spot) : Bool :=
  (s.char == ':' && endsWord rest) || (flow && isFlowIndicator s.char)

/-- a colon that a flow collection does not take: an indicator follows it -/
def isStrayColon (s : Spot) (rest : List Spot) : Bool :=
  s.char == ':' && rest.head?.any fun t => isFlowIndicator t.char || t.char == '?'

/-- A plain scalar and the text after it, the gap behind it included.  `word` is what has been read,
backwards, and `gap` what stands after it.  A tab may not stand in for indentation. -/
def readPlain? (flow : Bool) (least : Nat) (word : List Char) (gap : Gap) :
    List Spot → Option PlainScalar
  | [] => some ⟨word.reverse, gap.isBroken, []⟩
  | s :: rest =>
    if isGap s.char then
      if gap.isBroken && s.char == '\t' && s.column < least then none
      else readPlain? flow least word (gap.push s.char) rest
    else if !gap.isEmpty && endsBeforeWord flow least (s :: rest) then
      some ⟨word.reverse, gap.isBroken, s :: rest⟩
    else if flow && isStrayColon s rest then none
    else if endsBefore flow s rest then some ⟨word.reverse, gap.isBroken, s :: rest⟩
    else readPlain? flow least (s.char :: (gap.text.reverse ++ word)) .empty rest

end TableAlgebra.Yaml
