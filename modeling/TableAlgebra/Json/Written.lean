import TableAlgebra.Json.Numeral
import TableAlgebra.Text.Hex

/-!
# JSON as written

The structure of a JSON text with its numerals and strings as they are written: a numeral may be beyond
the doubles and a string may hold half a surrogate pair, and whether that matters is for the reader of
the part to say.  A part that nobody reads only has to be well formed.
-/

namespace TableAlgebra

mutual

/-- a JSON text: strings are rows of code points and of 16-bit units from escapes -/
inductive Written where
  | null
  | bool (value : Bool)
  | number (numeral : Numeral)
  | string (units : List Nat)
  | array (elements : List Written)
  | object (members : List WrittenMember)

structure WrittenMember where
  name : List Nat
  value : Written

end

instance : Inhabited Written := ⟨.null⟩

/-! ## strings -/

/-- Joins each pair of surrogates into one code point; `none` if one is left alone.  Only escapes can
give surrogates, so nothing else is joined. -/
def decodeUnits? : List Nat → Option (List Char)
  | [] => some []
  | u :: rest =>
    if 0xDC00 ≤ u && u ≤ 0xDFFF then none
    else if 0xD800 ≤ u && u ≤ 0xDBFF then
      match rest with
      | v :: rest =>
        if 0xDC00 ≤ v && v ≤ 0xDFFF then
          (decodeUnits? rest).map (Char.ofNat (0x10000 + (u - 0xD800) * 0x400 + (v - 0xDC00)) :: ·)
        else none
      | [] => none
    else (decodeUnits? rest).map (Char.ofNat u :: ·)

def hexUnit? (a b c d : Char) : Option Nat := do
  return 4096 * (← hexValue? a) + 256 * (← hexValue? b) + 16 * (← hexValue? c) + (← hexValue? d)

/-- the character that a one-letter escape stands for -/
def escaped? : Char → Option Char
  | '"' => some '"'
  | '\\' => some '\\'
  | '/' => some '/'
  | 'b' => some '\x08'
  | 'f' => some '\x0c'
  | 'n' => some '\n'
  | 'r' => some '\r'
  | 't' => some '\t'
  | _ => none

/-- the units of a string up to its closing quote, and the text after it; control characters must be
escaped -/
def readUnits? : List Char → Option (List Nat × List Char)
  | [] => none
  | '"' :: rest => some ([], rest)
  | '\\' :: 'u' :: a :: b :: c :: d :: rest => do
    let unit ← hexUnit? a b c d
    let (units, rest) ← readUnits? rest
    return (unit :: units, rest)
  | '\\' :: e :: rest => do
    let c ← escaped? e
    let (units, rest) ← readUnits? rest
    return (c.toNat :: units, rest)
  | c :: rest =>
    if c.toNat < 0x20 || c == '\\' then none
    else do
      let (units, rest) ← readUnits? rest
      return (c.toNat :: units, rest)

/-! ## numerals -/

/-- reads an exponent, if there is one: a letter `e`, a sign perhaps, and at least one digit -/
def readExponentPart? : List Char → Option (Option (Bool × List Char) × List Char)
  | c :: cs =>
    if c == 'e' || c == 'E' then
      let (negative, cs) := splitSign cs
      if (cs.takeWhile isDigit).isEmpty then none
      else some (some (negative, cs.takeWhile isDigit), cs.dropWhile isDigit)
    else some (none, c :: cs)
  | [] => some (none, [])

/-- reads the digits after a point, if there is one; at least one digit must follow it -/
def readPlaces? : List Char → Option (List Char × List Char)
  | '.' :: cs =>
    if (cs.takeWhile isDigit).isEmpty then none
    else some (cs.takeWhile isDigit, cs.dropWhile isDigit)
  | cs => some ([], cs)

/-- reads a numeral: a minus sign perhaps, digits without a leading zero, and the optional parts -/
def readNumeral? (cs : List Char) : Option (Numeral × List Char) := do
  let (negative, cs) := match cs with
    | '-' :: cs => (true, cs)
    | cs => (false, cs)
  let whole := cs.takeWhile isDigit
  if whole.isEmpty || (whole.length > 1 && whole.head? == some '0') then none
  else
    let (places, cs) ← readPlaces? (cs.dropWhile isDigit)
    let (exponent, cs) ← readExponentPart? cs
    return (⟨negative, whole, places, exponent⟩, cs)

/-! ## trees -/

/-- the characters that may stand between tokens -/
def isJsonBlank (c : Char) : Bool := c == ' ' || c == '\t' || c == '\n' || c == '\r'

def skipJsonBlanks (cs : List Char) : List Char := cs.dropWhile isJsonBlank

namespace Written

mutual

/-- reads one value, blanks before it skipped; every call uses up one unit of fuel -/
def read : Nat → List Char → Option (Written × List Char)
  | 0, _ => none
  | fuel + 1, cs =>
    match skipJsonBlanks cs with
    | 'n' :: 'u' :: 'l' :: 'l' :: cs => some (null, cs)
    | 't' :: 'r' :: 'u' :: 'e' :: cs => some (bool true, cs)
    | 'f' :: 'a' :: 'l' :: 's' :: 'e' :: cs => some (bool false, cs)
    | '"' :: cs => (readUnits? cs).map fun (units, cs) => (string units, cs)
    | '[' :: cs =>
      match skipJsonBlanks cs with
      | ']' :: cs => some (array [], cs)
      | cs => (readElements fuel cs).map fun (elements, cs) => (array elements, cs)
    | '\x7b' :: cs =>
      match skipJsonBlanks cs with
      | '\x7d' :: cs => some (object [], cs)
      | cs => (readMembers fuel cs).map fun (members, cs) => (object members, cs)
    | cs => (readNumeral? cs).map fun (numeral, cs) => (number numeral, cs)

def readElements : Nat → List Char → Option (List Written × List Char)
  | 0, _ => none
  | fuel + 1, cs =>
    match read fuel cs with
    | none => none
    | some (element, cs) =>
      match skipJsonBlanks cs with
      | ',' :: cs => (readElements fuel cs).map fun (elements, cs) => (element :: elements, cs)
      | ']' :: cs => some ([element], cs)
      | _ => none

def readMembers : Nat → List Char → Option (List WrittenMember × List Char)
  | 0, _ => none
  | fuel + 1, cs =>
    match skipJsonBlanks cs with
    | '"' :: cs =>
      match readUnits? cs with
      | none => none
      | some (name, cs) =>
        match skipJsonBlanks cs with
        | ':' :: cs =>
          match read fuel cs with
          | none => none
          | some (value, cs) =>
            match skipJsonBlanks cs with
            | ',' :: cs =>
              (readMembers fuel cs).map fun (members, cs) => (⟨name, value⟩ :: members, cs)
            | '\x7d' :: cs => some ([⟨name, value⟩], cs)
            | _ => none
        | _ => none
    | _ => none

end

/-- The tree of a whole text; only blanks may follow the value.  No value needs more than two units of
fuel for each of its characters. -/
def parse? (text : String) : Option Written :=
  let cs := text.toList
  match read (2 * cs.length + 2) cs with
  | some (value, rest) => if (skipJsonBlanks rest).isEmpty then some value else none
  | none => none

/-! ## parts -/

def bool? : Written → Option Bool
  | bool b => some b
  | _ => none

/-- the string a part stands for; none if it holds half a surrogate pair -/
def string? : Written → Option String
  | string units => (decodeUnits? units).map String.ofList
  | _ => none

def elements? : Written → Option (List Written)
  | array elements => some elements
  | _ => none

end Written

def WrittenMember.name? (m : WrittenMember) : Option String :=
  (decodeUnits? m.name).map String.ofList

end TableAlgebra
