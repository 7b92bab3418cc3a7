/-!
# Blanks

The characters with the Unicode property of white space, and texts trimmed of them.
-/

namespace TableAlgebra

/-- white space: the ASCII blanks and controls, the spaces of fixed width, the line and paragraph
separators -/
def isBlank (c : Char) : Bool :=
  let n := c.toNat
  (0x09 ≤ n && n ≤ 0x0D) || n == 0x20 || n == 0x85 || n == 0xA0 || n == 0x1680 ||
    (0x2000 ≤ n && n ≤ 0x200A) || n == 0x2028 || n == 0x2029 || n == 0x202F || n == 0x205F ||
    n == 0x3000

def trimBlanksRight (cs : List Char) : List Char := (cs.reverse.dropWhile isBlank).reverse

def trimBlanks (text : String) : String :=
  String.ofList (trimBlanksRight (text.toList.dropWhile isBlank))

/-- every blank of core's own class is one -/
theorem isBlank_of_isWhitespace {c : Char} (h : c.isWhitespace) : isBlank c := by
  simp only [Char.isWhitespace, Bool.or_eq_true, decide_eq_true_eq] at h
  rcases h with ((h | h) | h) | h <;> subst h <;> decide

end TableAlgebra
