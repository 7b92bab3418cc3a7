import TableAlgebra.Pattern.Sign

/-!
# Sets of characters

Sets in brackets, as they occur in patterns.  A set is a row of characters, ranges, classes and further
sets; rows may be combined by intersection, difference and symmetric difference, all of one precedence.
-/

namespace TableAlgebra

inductive CharSet where
  | empty
  | range (first last : Char)
  | kind (negated : Bool)
  | category
  | bracket (negated : Bool) (s : CharSet)
  | row (items : List CharSet)
  | combined (left right : CharSet)

namespace CharSet

/-- the row of some items; a single item is no row -/
def ofItems : List CharSet → CharSet
  | [] => empty
  | [s] => s
  | items => row items

mutual

def depth : CharSet → Nat
  | bracket _ s => s.depth + 1
  | row items => depthAll items + 1
  | combined left right => max left.depth right.depth + 1
  | _ => 0

def depthAll : List CharSet → Nat
  | [] => 0
  | s :: items => max s.depth (depthAll items)

end

mutual

/-- the set is made of ASCII characters only, and of nothing that is negated -/
def isAscii : CharSet → Bool
  | empty => true
  | range first last => first.toNat < 0x80 && last.toNat < 0x80
  | kind negated => !negated
  | category => false
  | bracket negated s => !negated && s.isAscii
  | row items => allAscii items
  | combined left right => left.isAscii && right.isAscii

def allAscii : List CharSet → Bool
  | [] => true
  | s :: items => s.isAscii && allAscii items

end

theorem depthAll_append (items more : List CharSet) :
    depthAll (items ++ more) = max (depthAll items) (depthAll more) := by
  induction items with
  | nil => simp [depthAll]
  | cons s items ih => simp [depthAll, ih, Nat.max_assoc]

/-- the set of a sign; conditions on a place are no sets -/
def ofSign? : PatternSign → Option CharSet
  | .char c => some (range c c)
  | .byte c => some (range c c)
  | .kind negated => some (kind negated)
  | .category => some category
  | _ => none

/-- the range between two signs, which have to be characters in order -/
def range? (first last : PatternSign) : Option CharSet := do
  let first ← first.char?
  let last ← last.char?
  if first ≤ last then some (range first last) else none

end CharSet

/-! ## open sets -/

/-- a set whose closing bracket is still to come: what stands in front of its last operator, and the
items after it, the last one first; `leading` until something other than hyphens has been read -/
structure OpenSet where
  negated : Bool := false
  leading : Bool := true
  left : Option CharSet := none
  items : List CharSet := []

namespace OpenSet

def add (o : OpenSet) (s : CharSet) : OpenSet := { o with leading := false, items := s :: o.items }

/-- the set as it is so far, without its brackets -/
def content (o : OpenSet) : CharSet :=
  let right := CharSet.ofItems o.items.reverse
  match o.left with
  | some left => .combined left right
  | none => right

def operator (o : OpenSet) : OpenSet :=
  { o with leading := false, left := some o.content, items := [] }

end OpenSet

/-! ## reading -/

def asciiClasses : List String :=
  ["alnum", "alpha", "ascii", "blank", "cntrl", "digit", "graph", "lower", "print", "punct", "space",
    "upper", "word", "xdigit"]

/-- after a bracket, the class of ASCII characters that is named between colons; a caret negates it -/
def asciiClass? : List Char → Option (CharSet × List Char)
  | ':' :: cs =>
    let negated := cs.head? == some '^'
    let cs := if negated then cs.tail else cs
    let name := cs.takeWhile fun c => c != ':'
    match cs.dropWhile fun c => c != ':' with
    | ':' :: ']' :: rest =>
      if asciiClasses.contains (String.ofList name) then some (.kind negated, rest) else none
    | _ => none
  | _ => none

def setSign? (spaced : Bool) : List Char → Option (PatternSign × List Char)
  | [] => none
  | '\\' :: cs => escape? spaced cs
  | c :: cs => some (.char c, cs)

/-- The character behind a hyphen that tells whether the hyphen makes a range.  Blanks are passed over
where they do not count, but of a comment only the number sign is. -/
def behindHyphen (spaced : Bool) (cs : List Char) : Option Char :=
  if spaced then
    match cs.dropWhile isBlank with
    | '#' :: cs => (cs.dropWhile isBlank).head?
    | cs => cs.head?
  else cs.head?

/-- a character, a class or a range in a set; a hyphen in front of another one or of the bracket makes no
range -/
def setItem? (spaced : Bool) (cs : List Char) : Option (CharSet × List Char) := do
  let (first, cs) ← setSign? spaced cs
  match skipSpace spaced cs with
  | '-' :: rest =>
    let next := behindHyphen spaced rest
    if next == some ']' || next == some '-' then return (← CharSet.ofSign? first, '-' :: rest)
    else
      let (last, rest) ← setSign? spaced (skipSpace spaced rest)
      return (← CharSet.range? first last, rest)
  | cs => return (← CharSet.ofSign? first, cs)

/-- after an opening bracket, whether a caret negates the set -/
def openSet (spaced : Bool) (cs : List Char) : OpenSet × List Char :=
  match skipSpace spaced cs with
  | '^' :: cs => ({ negated := true }, cs)
  | cs => ({}, cs)

/-- The rest of a set, and what comes after its closing bracket.  Hyphens in front stand for themselves,
and so does a closing bracket in front.  No more than `levels` sets may be open in this one; every call
uses up one unit of fuel. -/
def setRest? (spaced : Bool) : Nat → (levels : Nat) → OpenSet → List Char →
    Option (CharSet × List Char)
  | 0, _, _, _ => none
  | fuel + 1, levels, o, cs =>
    match skipSpace spaced cs with
    | [] => none
    | '-' :: cs =>
      if o.leading then
        setRest? spaced fuel levels { o with items := .range '-' '-' :: o.items } cs
      else if cs.head? == some '-' then setRest? spaced fuel levels o.operator cs.tail
      else do
        let (item, cs) ← setItem? spaced ('-' :: cs)
        setRest? spaced fuel levels (o.add item) cs
    | ']' :: cs =>
      if o.leading && o.items.isEmpty then
        setRest? spaced fuel levels (o.add (.range ']' ']')) cs
      else some (.bracket o.negated o.content, cs)
    | '[' :: cs =>
      match asciiClass? cs with
      | some (item, cs) => setRest? spaced fuel levels (o.add item) cs
      | none =>
        if levels = 0 then none
        else do
          let (inner, cs) := openSet spaced cs
          let (item, cs) ← setRest? spaced fuel (levels - 1) inner cs
          setRest? spaced fuel levels (o.add item) cs
    | '&' :: '&' :: cs => setRest? spaced fuel levels o.operator cs
    | '~' :: '~' :: cs => setRest? spaced fuel levels o.operator cs
    | cs => do
      let (item, cs) ← setItem? spaced cs
      setRest? spaced fuel levels (o.add item) cs

/-- The set after an opening bracket, and what comes after its closing bracket.  More fuel than there are
characters is enough. -/
def charSet? (spaced : Bool) (fuel levels : Nat) (cs : List Char) : Option (CharSet × List Char) :=
  let (o, rest) := openSet spaced cs
  setRest? spaced fuel levels o rest

end TableAlgebra
