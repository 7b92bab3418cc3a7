import TableAlgebra.Text.Hex
import TableAlgebra.Yaml.Spot

/-!
# Tags, anchors and directives

The signs that say something about a node or about a document: `&name` and `*name`, tags after an
exclamation mark, and the lines that begin with a percent sign.  The octets of a tag may be written as a
percent sign and two hexadecimal digits, as long as they spell characters.
-/

namespace TableAlgebra.Yaml

/-! ## octets -/

structure Tag where
  octets : List UInt8
  deriving DecidableEq, Inhabited

namespace Tag

def ofAscii (text : String) : Tag := ⟨text.toList.map fun c => c.toNat.toUInt8⟩

def bool : Tag := ofAscii "tag:yaml.org,2002:bool"

/-- the name of a tag that begins with an exclamation mark, if its octets spell one -/
def localName? (t : Tag) : Option String :=
  match t.octets with
  | [] => none
  | o :: name => if o == 0x21 then String.fromUTF8? ⟨name.toArray⟩ else none

end Tag

def octet? (high low : Char) : Option UInt8 := do
  return (16 * (← hexValue? high) + (← hexValue? low)).toUInt8

/-- how many octets follow the first one of a character -/
def octetsAfter? (o : UInt8) : Option Nat :=
  if o &&& 0x80 == 0 then some 0
  else if o &&& 0xE0 == 0xC0 then some 1
  else if o &&& 0xF0 == 0xE0 then some 2
  else if o &&& 0xF8 == 0xF0 then some 3
  else none

/-! ## names -/

/-- a character of a name: a letter or digit of ASCII, an underscore or a dash -/
def isNameChar (c : Char) : Bool := c.isAlphanum || c == '_' || c == '-'

/-- the characters of a name at the front of the text, and the text after them -/
def readName (text : List Spot) : List Char × List Spot :=
  ((text.takeWhile fun s => isNameChar s.char).map Spot.char,
    text.dropWhile fun s => isNameChar s.char)

/-- a character that may follow the name of an anchor -/
def endsAnchor (c : Char) : Bool :=
  c == '?' || c == ':' || c == ',' || c == ']' || c == '\x7d' || c == '%' || c == '@' || c == '\u0060'

/-- the name of an anchor or an alias after its sign -/
def readAnchor? (text : List Spot) : Option (String × List Spot) :=
  let (name, rest) := readName text
  if !name.isEmpty && (endsWord rest || rest.head?.any fun s => endsAnchor s.char) then
    some (String.ofList name, rest)
  else none

/-! ## tags -/

/-- a tag as it is written: its handle is looked up, and what follows is appended -/
structure TagName where
  handle : String
  suffix : List UInt8
  deriving DecidableEq, Inhabited

/-- a character of a tag that stands for itself; between angle brackets there are three more -/
def isTagChar (bracketed : Bool) (c : Char) : Bool :=
  isNameChar c || c == ';' || c == '/' || c == '?' || c == ':' || c == '@' || c == '&' || c == '=' ||
    c == '+' || c == '$' || c == '.' || c == '!' || c == '~' || c == '*' || c == '\'' || c == '(' ||
    c == ')' || (bracketed && (c == ',' || c == '[' || c == ']'))

/-- The octets of a tag at the front of the text, and the text after them; `more` octets of a character
are still to come. -/
def readOctets? (bracketed : Bool) (more : Nat) : List Spot → Option (List UInt8 × List Spot)
  | [] => if more == 0 then some ([], []) else none
  | s :: rest =>
    if s.char == '%' then
      match rest with
      | high :: low :: rest =>
        match octet? high.char low.char with
        | none => none
        | some o =>
          let more? := if more == 0 then octetsAfter? o
            else if o &&& 0xC0 == 0x80 then some (more - 1)
            else none
          match more? with
          | none => none
          | some more => (readOctets? bracketed more rest).map fun (os, rest) => (o :: os, rest)
      | _ => none
    else if more != 0 then none
    else if isTagChar bracketed s.char then
      (readOctets? bracketed 0 rest).map fun (os, rest) => (s.char.toNat.toUInt8 :: os, rest)
    else some ([], s :: rest)

/-- octets that are there, up to the first that is zero -/
def readSuffix? (bracketed : Bool) (text : List Spot) : Option (List UInt8 × List Spot) :=
  match readOctets? bracketed 0 text with
  | some ([], _) => none
  | some (os, rest) => some (os.takeWhile (· != 0), rest)
  | none => none

/-- A handle after its exclamation mark: a name and a second mark, or only a name.  Gives the name,
whether the second mark is there, and the text after them. -/
def readHandle (text : List Spot) : List Char × Bool × List Spot :=
  let (name, rest) := readName text
  match rest with
  | [] => (name, false, [])
  | s :: after => if s.char == '!' then (name, true, after) else (name, false, s :: after)

/-- A tag after its exclamation mark, and the text after it: the whole tag between angle brackets, a
handle and a suffix, or a suffix alone.  The mark alone is a tag of its own. -/
def readTagName? (text : List Spot) : Option (TagName × List Spot) :=
  if opensWith '<' text then
    match readSuffix? true (text.drop 1) with
    | some (suffix, s :: rest) => if s.char == '>' then some (⟨"", suffix⟩, rest) else none
    | _ => none
  else
    let (name, closed, rest) := readHandle text
    if closed then
      (readSuffix? false rest).map fun (suffix, rest) =>
        (⟨String.ofList ('!' :: name ++ ['!']), suffix⟩, rest)
    else
      (readOctets? false 0 rest).map fun (os, rest) =>
        let suffix := name.map (fun c => c.toNat.toUInt8) ++ os.takeWhile (· != 0)
        (if suffix.isEmpty then ⟨"", [0x21]⟩ else ⟨"!", suffix⟩, rest)

/-- a tag after its exclamation mark; a gap follows it or, in a flow collection, a comma -/
def readTag? (flow : Bool) (text : List Spot) : Option (TagName × List Spot) :=
  match readTagName? text with
  | some (tag, rest) => if endsWord rest || (flow && opensWith ',' rest) then some (tag, rest) else none
  | none => none

/-! ## directives -/

inductive Directive where
  | version (major minor : Nat)
  | handle (name : String) (stem : List UInt8)
  deriving DecidableEq

/-- a number of at most nine digits at the front of the text -/
def readNumber? (text : List Spot) : Option (Nat × List Spot) :=
  let digits := text.takeWhile fun s => s.char.isDigit
  if digits.isEmpty || 9 < digits.length then none
  else
    some (digits.foldl (fun n s => 10 * n + (s.char.toNat - '0'.toNat)) 0,
      text.dropWhile fun s => s.char.isDigit)

def readVersion? (text : List Spot) : Option (Directive × List Spot) := do
  let (major, text) ← readNumber? (skipSpaces text)
  if opensWith '.' text then
    let (minor, text) ← readNumber? (text.drop 1)
    return (.version major minor, text)
  else none

/-- a handle and what it stands for, with blanks between them -/
def readHandleStem? (text : List Spot) : Option (Directive × List Spot) := do
  let text := skipSpaces text
  if opensWith '!' text then
    let (name, closed, text) := readHandle (text.drop 1)
    if !closed && !name.isEmpty then none
    else if text.head?.any fun s => isSpace s.char then
      let (stem, text) ← readSuffix? true (skipSpaces text)
      let handle := if closed then '!' :: name ++ ['!'] else ['!']
      if endsWord text then return (.handle (String.ofList handle) stem, text) else none
    else none
  else none

/-- a directive after its percent sign, and the lines after it -/
def readDirective? (text : List Spot) : Option (Directive × List Spot) := do
  let (name, rest) := readName text
  if endsWord rest then
    let (directive, rest) ←
      if name == ['Y', 'A', 'M', 'L'] then readVersion? rest
      else if name == ['T', 'A', 'G'] then readHandleStem? rest
      else none
    return (directive, ← endLine? rest)
  else none

end TableAlgebra.Yaml
