import TableAlgebra.Number.Decimal
import TableAlgebra.Number.Shortest

/-!
# Numerals

How numbers are written: a minus where there is one, then digits, or digits with a point between them,
never an exponent.  The one double that would be written otherwise is an infinity or NaN, and no literal
holds it.

* `IsNumeral`                  the texts of numbers without a sign;
* `isNumeral_positional`       digits and a power of ten are written as a numeral;
* `Binary64.text_of_finite`    a finite double is written as a numeral after its sign.
-/

namespace TableAlgebra

/-- digits, or digits with a point between them -/
def IsNumeral (text : String) : Prop :=
  ∃ whole part : List Char, whole ≠ [] ∧ (∀ c ∈ whole ++ part, isDigit c = true) ∧
    (text.toList = whole ∨ part ≠ [] ∧ text.toList = whole ++ '.' :: part)

theorem IsNumeral.toList_eq {text : String} (h : IsNumeral text) :
    ∃ c cs, text.toList = c :: cs ∧ isDigit c = true ∧ ∀ d ∈ cs, isDigit d = true ∨ d = '.' := by
  obtain ⟨whole, part, hne, hdigit, htext⟩ := h
  obtain ⟨c, cs, rfl⟩ := List.exists_cons_of_ne_nil hne
  have hc : isDigit c = true := hdigit c (by simp)
  rcases htext with htext | ⟨-, htext⟩
  · exact ⟨c, cs, htext, hc, fun d hd => .inl (hdigit d (by simp [hd]))⟩
  · refine ⟨c, cs ++ '.' :: part, htext, hc, fun d hd => ?_⟩
    rcases List.mem_append.mp hd with hd | hd
    · exact .inl (hdigit d (by simp [hd]))
    · rcases List.mem_cons.mp hd with rfl | hd
      · exact .inr rfl
      · exact .inl (hdigit d (by simp [hd]))

theorem isNumeral_of_digits {text : String} (hne : text.toList ≠ [])
    (hdigit : ∀ c ∈ text.toList, isDigit c = true) : IsNumeral text :=
  ⟨text.toList, [], hne, by simpa using hdigit, .inl rfl⟩

theorem isNumeral_of_point {whole part : List Char} (hwhole : whole ≠ []) (hpart : part ≠ [])
    (hdigit : ∀ c ∈ whole ++ part, isDigit c = true) :
    IsNumeral (String.ofList whole ++ "." ++ String.ofList part) := by
  refine ⟨whole, part, hwhole, hdigit, .inr ⟨hpart, ?_⟩⟩
  simp

theorem toList_toString_ne_nil (n : Nat) : (toString n).toList ≠ [] := by
  rw [Nat.toString_eq_ofList_toDigits, String.toList_ofList]
  exact Nat.toDigits_ne_nil

theorem isDigit_of_mem_toString {n : Nat} {c : Char} (h : c ∈ (toString n).toList) :
    isDigit c = true := by
  rw [Nat.toString_eq_ofList_toDigits, String.toList_ofList] at h
  have hc := Nat.isDigit_of_mem_toDigits (by decide) (by decide) h
  simpa [Char.isDigit, isDigit, Char.le_def] using hc

theorem isNumeral_toString (n : Nat) : IsNumeral (toString n) :=
  isNumeral_of_digits (toList_toString_ne_nil n) fun _ => isDigit_of_mem_toString

namespace Binary64

theorem toList_zeros (n : Nat) : (zeros n).toList = List.replicate n '0' :=
  String.toList_ofList

theorem isDigit_of_mem_zeros {n : Nat} {c : Char} (h : c ∈ (zeros n).toList) : isDigit c = true := by
  rw [toList_zeros] at h
  rw [(List.mem_replicate.mp h).2]
  rfl

/-- digits and a power of ten are written as a numeral: the zeros of the power stand at the end, or the
point where the power says, with zeros in front if there are too few digits -/
theorem isNumeral_positional (digits : Nat) (k : Int) : IsNumeral (positional digits k) := by
  have hne := toList_toString_ne_nil digits
  have hdigit : ∀ c ∈ (toString digits).toList, isDigit c = true := fun _ => isDigit_of_mem_toString
  unfold positional
  by_cases hk : 0 ≤ k
  · rw [if_pos hk]
    refine isNumeral_of_digits (by simp) fun c hc => ?_
    rw [String.toList_append, List.mem_append] at hc
    rcases hc with hc | hc
    · exact hdigit c hc
    · split at hc
      · exact absurd hc List.not_mem_nil
      · exact isDigit_of_mem_zeros hc
  · rw [if_neg hk]
    by_cases hlen : (toString digits).length ≤ (-k).toNat
    · rw [if_pos hlen]
      have htext : "0." ++ zeros ((-k).toNat - (toString digits).length) ++ toString digits
          = String.ofList ['0'] ++ "." ++ String.ofList
            ((zeros ((-k).toNat - (toString digits).length)).toList ++ (toString digits).toList) := by
        rw [← String.toList_inj]
        simp
      rw [htext]
      refine isNumeral_of_point (List.cons_ne_nil _ _) (by simp) fun c hc => ?_
      simp only [List.mem_append, List.mem_singleton] at hc
      rcases hc with rfl | hc | hc
      · rfl
      · exact isDigit_of_mem_zeros hc
      · exact hdigit c hc
    · rw [if_neg hlen]
      have hplaces : 0 < (-k).toNat := by omega
      have hlength : (toString digits).length = (toString digits).toList.length :=
        String.length_toList.symm
      refine isNumeral_of_point ?_ ?_ fun c hc => hdigit c ?_
      · rw [Ne, List.take_eq_nil_iff]
        simp only [hne, or_false]
        omega
      · rw [Ne, List.drop_eq_nil_iff]
        omega
      · rwa [List.take_append_drop] at hc

theorem text_of_finite {x : Binary64} (h : x.isFinite = true) :
    ∃ digits, IsNumeral digits ∧ x.text = x.signText ++ digits := by
  have hnan : x.isNaN = false := by
    unfold isFinite at h
    simp_all [isNaN]
  refine ⟨positional (x.shortest .up).1 (x.shortest .up).2, isNumeral_positional _ _, ?_⟩
  simp [text, hnan, h]

end Binary64

end TableAlgebra
