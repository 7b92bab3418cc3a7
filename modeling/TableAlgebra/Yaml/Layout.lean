import TableAlgebra.Yaml.BlockScalar
import TableAlgebra.Yaml.Token

/-!
# Layout

The reading of tokens from a text.  Block collections open where something is further in than all that is
open and close where something is further out.  A key of a mapping is only known as one when its colon
comes; so every token that may begin a key is remembered, and the colon puts a `key` token in front of
it.  Such a key stands on one line and is at most 1024 bytes long.
-/

namespace TableAlgebra.Yaml

/-- A token that may begin a key: how many tokens stand before it, and where it is.  It must begin one if
a block mapping is open at its column. -/
structure KeyCandidate where
  index : Nat
  place : Spot
  required : Bool

namespace KeyCandidate

/-- a colon at a spot is too far from the candidate to end a key -/
def isStale (k : KeyCandidate) (s : Spot) : Bool :=
  k.place.line < s.line || k.place.offset + 1024 < s.offset

end KeyCandidate

/-- The tokens so far, last first, and their number; the columns of the open block collections, innermost
first; the candidate for a key in the innermost flow collection and in those around it; and whether a key
may begin at the next token. -/
structure Layout where
  tokens : List Token := []
  count : Nat := 0
  columns : List Nat := []
  candidate : Option KeyCandidate := none
  outer : List (Option KeyCandidate) := []
  keyAllowed : Bool := true

namespace Layout

def inFlow (l : Layout) : Bool := !l.outer.isEmpty

/-- one more than the column of the innermost block collection; zero if none is open -/
def level (l : Layout) : Nat :=
  match l.columns with
  | [] => 0
  | column :: _ => column + 1

def push (t : Token) (l : Layout) : Layout := { l with tokens := t :: l.tokens, count := l.count + 1 }

/-- one more token, in front of those from an index on -/
def insert (index : Nat) (t : Token) (l : Layout) : Layout :=
  let later := l.count - index
  { l with tokens := l.tokens.take later ++ t :: l.tokens.drop later, count := l.count + 1 }

/-! ## block collections -/

/-- opens a block collection at a column, unless one is open there or further in -/
def openBlock (column index : Nat) (t : Token) (l : Layout) : Layout :=
  if !l.inFlow && l.level ≤ column then
    { l.insert index t with columns := column :: l.columns }
  else l

def closeColumns (least : Nat) (tokens : List Token) (count : Nat) :
    List Nat → List Token × Nat × List Nat
  | [] => (tokens, count, [])
  | column :: columns =>
    if least ≤ column then closeColumns least (.blockEnd :: tokens) (count + 1) columns
    else (tokens, count, column :: columns)

/-- closes the block collections at columns from `least` on -/
def closeBlocks (least : Nat) (l : Layout) : Layout :=
  if l.inFlow then l
  else
    let (tokens, count, columns) := closeColumns least l.tokens l.count l.columns
    { l with tokens, count, columns }

/-! ## candidates for keys -/

/-- gives up the candidate; one that must begin a key may not be given up -/
def dropCandidate? (l : Layout) : Option Layout :=
  match l.candidate with
  | some k => if k.required then none else some { l with candidate := none }
  | none => some l

/-- makes the next token, at a spot, the candidate, if a key may begin there -/
def saveCandidate? (s : Spot) (l : Layout) : Option Layout :=
  if l.keyAllowed then
    l.dropCandidate?.map fun l =>
      { l with candidate := some ⟨l.count, s, !l.inFlow && l.level == s.column + 1⟩ }
  else some l

/-- the candidate that a colon at a spot makes a key, if there is one -/
def takeCandidate? (s : Spot) (l : Layout) : Option (Option KeyCandidate × Layout) :=
  match l.candidate with
  | some k =>
    if k.isStale s then l.dropCandidate?.map fun l => (none, l)
    else some (some k, { l with candidate := none })
  | none => some (none, l)

/-! ## signs -/

/-- a token on its own that stands outside of all collections: nothing is open after it -/
def outermost? (t : Token) (l : Layout) : Option Layout :=
  (l.closeBlocks 0).dropCandidate?.map fun l => { l.push t with keyAllowed := false }

def openFlow? (t : Token) (s : Spot) (l : Layout) : Option Layout :=
  (l.saveCandidate? s).map fun l =>
    { l.push t with candidate := none, outer := l.candidate :: l.outer, keyAllowed := true }

def closeFlow? (t : Token) (l : Layout) : Option Layout :=
  l.dropCandidate?.map fun l =>
    let l := { l.push t with keyAllowed := false }
    match l.outer with
    | [] => l
    | candidate :: outer => { l with candidate, outer }

def flowEntry? (l : Layout) : Option Layout :=
  l.dropCandidate?.map fun l => { l.push .flowEntry with keyAllowed := true }

def blockEntry? (s : Spot) (l : Layout) : Option Layout :=
  if !l.inFlow && !l.keyAllowed then none
  else
    (l.openBlock s.column l.count .blockSequenceStart).dropCandidate?.map fun l =>
      { l.push .blockEntry with keyAllowed := true }

def key? (s : Spot) (l : Layout) : Option Layout :=
  if !l.inFlow && !l.keyAllowed then none
  else
    (l.openBlock s.column l.count .blockMappingStart).dropCandidate?.map fun l =>
      { l.push .key with keyAllowed := !l.inFlow }

def value? (s : Spot) (l : Layout) : Option Layout :=
  match l.takeCandidate? s with
  | none => none
  | some (some k, l) =>
    let l := (l.insert k.index .key).openBlock k.place.column k.index .blockMappingStart
    some { l.push .value with keyAllowed := false }
  | some (none, l) =>
    if !l.inFlow && !l.keyAllowed then none
    else
      let l := l.openBlock s.column l.count .blockMappingStart
      some { l.push .value with keyAllowed := !l.inFlow }

def keyPart? (s : Spot) (token? : Option (Token × List Spot)) (l : Layout) :
    Option (Layout × List Spot) := do
  let l ← l.saveCandidate? s
  let (t, rest) ← token?
  return ({ l.push t with keyAllowed := false }, rest)

/-- a plain scalar, with the text after it; a key may follow one that ends its line -/
def plain? (text : List Spot) (s : Spot) (l : Layout) : Option (Layout × List Spot) := do
  let l ← l.saveCandidate? s
  let scalar ← readPlain? l.inFlow l.level [] .empty text
  let t := Token.scalar .plain (String.ofList scalar.text)
  return ({ l.push t with keyAllowed := scalar.endsLine }, scalar.rest)

def blockScalar? (style : ScalarStyle) (rest : List Spot) (l : Layout) :
    Option (Layout × List Spot) := do
  let l ← l.dropCandidate?
  let (text, rest) ← readBlockScalar? (style == .folded) l.level rest
  return ({ l.push (.scalar style (String.ofList text)) with keyAllowed := true }, rest)

/-! ## tokens -/

/-- A plain scalar may begin with the character.  Indicators may not open one; a dash, and outside of
flow collections a question mark or a colon, may if no gap follows. -/
def opensPlain (flow : Bool) (c : Char) (rest : List Spot) : Bool :=
  if c == '-' then !endsWord rest
  else if c == '?' || c == ':' then !flow && !endsWord rest
  else
    !(isFlowIndicator c || c == '#' || c == '&' || c == '*' || c == '!' || c == '|' || c == '>' ||
      c == '\'' || c == '"' || c == '%' || c == '@' || c == '\u0060' || isGap c)

/-- the token at a spot, with the text after it -/
def step? (l : Layout) (s : Spot) (rest : List Spot) : Option (Layout × List Spot) :=
  let text := s :: rest
  let c := s.char
  if c == '%' && s.column == 0 then do
    let (directive, rest) ← readDirective? rest
    return (← l.outermost? (.directive directive), rest)
  else if isMarkerOf '-' text then (l.outermost? .documentStart).map (·, rest.drop 2)
  else if isMarkerOf '.' text then (l.outermost? .documentEnd).map (·, rest.drop 2)
  else if c == '[' then (l.openFlow? .flowSequenceStart s).map (·, rest)
  else if c == '\x7b' then (l.openFlow? .flowMappingStart s).map (·, rest)
  else if c == ']' then (l.closeFlow? .flowSequenceEnd).map (·, rest)
  else if c == '\x7d' then (l.closeFlow? .flowMappingEnd).map (·, rest)
  else if c == ',' then l.flowEntry?.map (·, rest)
  else if c == '-' && endsWord rest then (l.blockEntry? s).map (·, rest)
  else if c == '?' && (l.inFlow || endsWord rest) then (l.key? s).map (·, rest)
  else if c == ':' && (l.inFlow || endsWord rest) then (l.value? s).map (·, rest)
  else if c == '*' then
    l.keyPart? s ((readAnchor? rest).map fun (name, rest) => (.alias name, rest))
  else if c == '&' then
    l.keyPart? s ((readAnchor? rest).map fun (name, rest) => (.anchor name, rest))
  else if c == '!' then
    l.keyPart? s ((readTag? l.inFlow rest).map fun (name, rest) => (.tag name, rest))
  else if c == '|' && !l.inFlow then l.blockScalar? .literal rest
  else if c == '>' && !l.inFlow then l.blockScalar? .folded rest
  else if c == '\'' then
    l.keyPart? s ((readSingleQuoted? [] .empty rest).map fun (text, rest) =>
      (.scalar .singleQuoted (String.ofList text), rest))
  else if c == '"' then
    l.keyPart? s ((readDoubleQuoted? [] .empty rest).map fun (text, rest) =>
      (.scalar .doubleQuoted (String.ofList text), rest))
  else if opensPlain l.inFlow c rest then l.plain? text s
  else none

/-- the tokens of a text; every token uses up one unit of fuel -/
def run? : Nat → Layout → List Spot → Option (List Token)
  | 0, _, _ => none
  | fuel + 1, l, text =>
    let (keyAllowed, text) := skipGap l.inFlow l.keyAllowed false text
    let l := { l with keyAllowed }
    match text with
    | [] => (l.closeBlocks 0).dropCandidate?.map fun l => l.tokens.reverse
    | s :: rest =>
      match (l.closeBlocks (s.column + 1)).step? s rest with
      | some (l, rest) => run? fuel l rest
      | none => none

end Layout

def tokens? (text : List Spot) : Option (List Token) := Layout.run? (text.length + 1) {} text

end TableAlgebra.Yaml
