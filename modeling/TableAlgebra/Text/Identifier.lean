/-!
# Identifiers

The names that may stand unquoted in a statement: an ASCII letter, then ASCII letters, digits and
underscores.  Tables, columns, domains and enumeration labels are all named by identifiers, so no
name can end a token early or open a string or a comment.
-/

namespace TableAlgebra

def isIdentifierStart (c : Char) : Bool :=
  ('a' ≤ c && c ≤ 'z') || ('A' ≤ c && c ≤ 'Z')

def isIdentifierPart (c : Char) : Bool :=
  isIdentifierStart c || ('0' ≤ c && c ≤ '9') || c == '_'

def isIdentifierChars : List Char → Bool
  | [] => false
  | c :: cs => isIdentifierStart c && cs.all isIdentifierPart

/-- the whole text is an identifier; nothing may follow it, not even a line break -/
def isIdentifier (text : String) : Bool :=
  isIdentifierChars text.toList

theorem isIdentifierPart_of_start {c : Char} (h : isIdentifierStart c) : isIdentifierPart c := by
  simp [isIdentifierPart, h]

theorem isIdentifierChars_nil : isIdentifierChars [] = false := rfl

theorem isIdentifierChars_cons (c : Char) (cs : List Char) :
    isIdentifierChars (c :: cs) = (isIdentifierStart c && cs.all isIdentifierPart) := rfl

/-- every character of an identifier is a letter, a digit or an underscore -/
theorem isIdentifierPart_of_mem {cs : List Char} (h : isIdentifierChars cs) {c : Char}
    (hc : c ∈ cs) : isIdentifierPart c := by
  cases cs with
  | nil => cases hc
  | cons d ds =>
    simp only [isIdentifierChars_cons, Bool.and_eq_true, List.all_eq_true] at h
    rcases List.mem_cons.mp hc with rfl | hc
    · exact isIdentifierPart_of_start h.1
    · exact h.2 c hc

end TableAlgebra
