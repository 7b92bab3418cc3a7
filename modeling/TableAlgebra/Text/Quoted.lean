/-!
# Quoted strings

A string literal stands between two quotes, with each quote inside it written twice.  `decode`
reads such a text back and refuses a quote that stands alone, so a literal ends exactly where it
was meant to.
-/

namespace TableAlgebra.Quoted

/-- the characters of a string, each quote written twice -/
def encode : List Char → List Char
  | [] => []
  | c :: cs => if c = '\'' then '\'' :: '\'' :: encode cs else c :: encode cs

/-- reads doubled quotes back as single ones and refuses a quote that stands alone -/
def decode : List Char → Option (List Char)
  | [] => some []
  | '\'' :: '\'' :: cs => (decode cs).map ('\'' :: ·)
  | c :: cs => if c = '\'' then none else (decode cs).map (c :: ·)

theorem encode_nil : encode [] = [] := rfl

theorem encode_cons (c : Char) (cs : List Char) :
    encode (c :: cs) = if c = '\'' then '\'' :: '\'' :: encode cs else c :: encode cs := rfl

theorem encode_append (cs ds : List Char) : encode (cs ++ ds) = encode cs ++ encode ds := by
  induction cs with
  | nil => rfl
  | cons c cs ih => by_cases h : c = '\'' <;> simp [encode_cons, h, ih]

/-- what `encode` writes, `decode` reads back -/
theorem decode_encode (cs : List Char) : decode (encode cs) = some cs := by
  induction cs with
  | nil => rfl
  | cons c cs ih => by_cases h : c = '\'' <;> simp [encode, decode, h, ih]

end TableAlgebra.Quoted

namespace TableAlgebra

/-- a string as a literal: between two quotes, inner quotes doubled -/
def quote (text : String) : String :=
  String.ofList ('\'' :: (Quoted.encode text.toList ++ ['\'']))

theorem toList_quote (text : String) :
    (quote text).toList = '\'' :: (Quoted.encode text.toList ++ ['\'']) := by
  simp [quote]

end TableAlgebra
