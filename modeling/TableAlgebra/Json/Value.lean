import TableAlgebra.Json.Written

/-!
# JSON values

The values that JSON texts stand for, and their compact text: no blanks, members in the order they are
held, strings with the short escapes and nothing escaped that need not be.
-/

namespace TableAlgebra

mutual

/-- a JSON value; the members of an object are in order -/
inductive Json where
  | null
  | bool (value : Bool)
  | number (value : JsonNumber)
  | string (value : String)
  | array (elements : List Json)
  | object (members : List JsonMember)

structure JsonMember where
  name : String
  value : Json

end

instance : Inhabited Json := ⟨.null⟩

/-! ## text -/

/-- a character inside a JSON string: quotes, backslashes and control characters are escaped, by a
letter where there is one -/
def escapeJsonChar (c : Char) : List Char :=
  if c == '"' then ['\\', '"']
  else if c == '\\' then ['\\', '\\']
  else if c == '\x08' then ['\\', 'b']
  else if c == '\x0c' then ['\\', 'f']
  else if c == '\n' then ['\\', 'n']
  else if c == '\r' then ['\\', 'r']
  else if c == '\t' then ['\\', 't']
  else if c.toNat < 0x20 then ['\\', 'u', '0', '0', hexDigit (c.toNat / 16), hexDigit (c.toNat % 16)]
  else [c]

def jsonString (s : String) : String :=
  String.ofList ('"' :: (s.toList.flatMap escapeJsonChar ++ ['"']))

/-- a number in JSON; infinities and NaN have no numeral and are written as null -/
def JsonNumber.text : JsonNumber → String
  | integer i => toString i
  | float x => if x.isFinite then x.jsonText else "null"

namespace Json

mutual

/-- the compact text of a value -/
def compact : Json → String
  | null => "null"
  | bool b => if b then "true" else "false"
  | number n => n.text
  | string s => jsonString s
  | array elements => "[" ++ ",".intercalate (compactElements elements) ++ "]"
  | object members => "\x7b" ++ ",".intercalate (compactMembers members) ++ "\x7d"

def compactElements : List Json → List String
  | [] => []
  | j :: js => compact j :: compactElements js

def compactMembers : List JsonMember → List String
  | [] => []
  | m :: ms => compactMember m :: compactMembers ms

/-- the text of a member: its name, a colon and its value -/
def compactMember : JsonMember → String
  | ⟨name, value⟩ => jsonString name ++ ":" ++ compact value

end

def int (i : Int) : Json := number (.integer i)

def ofPairs (pairs : List (String × Json)) : Json :=
  object (pairs.map fun (name, value) => ⟨name, value⟩)

def string? : Json → Option String
  | string s => some s
  | _ => none

end Json

/-! ## from a text as written -/

namespace Written

mutual

/-- The value of a text as written; `none` if a numeral is beyond the doubles or a string holds half a
surrogate pair. -/
def toJson? : Written → Option Json
  | null => some .null
  | bool b => some (.bool b)
  | number n => n.toNumber?.map .number
  | string units => (decodeUnits? units).map fun cs => .string (String.ofList cs)
  | array elements => (toJsonElements? elements).map .array
  | object members => (toJsonMembers? members).map .object

def toJsonElements? : List Written → Option (List Json)
  | [] => some []
  | w :: ws =>
    match toJson? w, toJsonElements? ws with
    | some j, some js => some (j :: js)
    | _, _ => none

def toJsonMembers? : List WrittenMember → Option (List JsonMember)
  | [] => some []
  | m :: ms =>
    match toJsonMember? m, toJsonMembers? ms with
    | some j, some js => some (j :: js)
    | _, _ => none

def toJsonMember? : WrittenMember → Option JsonMember
  | ⟨name, value⟩ =>
    match decodeUnits? name, toJson? value with
    | some cs, some j => some ⟨String.ofList cs, j⟩
    | _, _ => none

end

end Written

def Json.parse? (text : String) : Option Json := (Written.parse? text).bind Written.toJson?

end TableAlgebra
