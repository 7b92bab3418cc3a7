/-!
# Ranges of characters

Classes of characters given as closed ranges of code points, the form in which the tables of the Unicode
standard are kept.
-/

namespace TableAlgebra

def inRanges (ranges : List (Nat × Nat)) (n : Nat) : Bool :=
  ranges.any fun r => r.1 ≤ n && n ≤ r.2

theorem inRanges_nil (n : Nat) : inRanges [] n = false := rfl

theorem inRanges_cons (r : Nat × Nat) (ranges : List (Nat × Nat)) (n : Nat) :
    inRanges (r :: ranges) n = ((r.1 ≤ n && n ≤ r.2) || inRanges ranges n) := rfl

end TableAlgebra
