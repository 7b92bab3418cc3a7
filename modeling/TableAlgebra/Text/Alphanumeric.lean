import TableAlgebra.Text.AlphanumericTable
import TableAlgebra.Text.NumberTable
import TableAlgebra.Text.Ranges

/-!
# Letters and numbers

The characters that count as letters or numbers in any script: those with the Unicode property of being
alphabetic and those of the general category of numbers.  An underscore is neither.
-/

namespace TableAlgebra

def isAlphanumeric (c : Char) : Bool :=
  if c.toNat < 0x80 then c.isAlphanum else inRanges alphanumericRanges c.toNat

/-- a letter of any script: what is a letter or a number and is not a mere number -/
def isAlphabetic (c : Char) : Bool :=
  if c.toNat < 0x80 then c.isAlpha else isAlphanumeric c && !inRanges numberRanges c.toNat

/-- in ASCII these are the letters and digits of core's own class -/
theorem isAlphanumeric_of_ascii {c : Char} (h : c.toNat < 0x80) :
    isAlphanumeric c = c.isAlphanum := by
  simp [isAlphanumeric, h]

/-- every letter is a letter or a number -/
theorem isAlphanumeric_of_isAlphabetic {c : Char} (h : isAlphabetic c) : isAlphanumeric c := by
  unfold isAlphabetic at h
  split at h
  · rename_i hc
    rw [isAlphanumeric_of_ascii hc]
    simp [Char.isAlphanum, h]
  · exact (Bool.and_eq_true_iff.mp h).1

end TableAlgebra
