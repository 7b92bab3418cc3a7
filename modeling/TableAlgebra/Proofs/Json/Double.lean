import TableAlgebra.Proofs.Json.Numeral
import TableAlgebra.Proofs.Number.Rounding

/-!
# Doubles that are read back

A double is written with the shortest digits that tell it from the other doubles, so no two doubles are written
alike.  It is read by way of a power of ten: the digits are rounded, the power is rounded, and so is their product or
quotient.  Three roundings may miss the double in the last bit, and whether they do is decidable.  They do not if the
digits and the power are not rounded, for then the quotient is near the double and is rounded to it.

* `Binary64.numeral_inj`          doubles that are written alike are the same;
* `Binary64.ReadsBack`            the text of a double is read as the same double;
* `Numeral.toFloat?_of_small`     at most 53 bits of digits and a small power are read as the double they are near;
* `Binary64.readsBack_of_small`   a double written with so few digits is read back.
-/

namespace TableAlgebra

/-! ## doubles -/

namespace Binary64

theorem readNumeral?_jsonText (x : Binary64) : readNumeral? x.jsonText.toList = some (x.numeral, []) := by
  rw [toList_jsonText, ← List.append_nil x.numeral.chars]
  exact readNumeral?_chars (sound_decimalNumeral _ _ _) endsNumeral_nil

theorem numeral_inj {x y : Binary64} (h : x.numeral = y.numeral) : x = y := by
  have hsign : x.isNegative = y.isNegative := by
    have hnegative := congrArg Numeral.negative h
    unfold numeral at hnegative
    rwa [negative_decimalNumeral, negative_decimalNumeral] at hnegative
  have hvalue : x.shortestValue .even = y.shortestValue .even := by
    have hmagnitude := congrArg Numeral.magnitude h
    unfold numeral at hmagnitude
    rwa [magnitude_decimalNumeral, magnitude_decimalNumeral] at hmagnitude
  exact eq_of_shortestValue hsign hvalue

/-- the text of the double is a numeral, and it is read as the same double -/
def ReadsBack (x : Binary64) : Prop := ∃ n, readNumeral? x.jsonText.toList = some (n, []) ∧ n.toFloat? = some x

theorem readsBack_iff (x : Binary64) : x.ReadsBack ↔ x.numeral.toFloat? = some x := by
  unfold ReadsBack
  rw [readNumeral?_jsonText]
  simp

instance : DecidablePred ReadsBack := fun x => decidable_of_iff _ x.readsBack_iff.symm

end Binary64

/-! ## few digits -/

namespace Numeral

theorem le_digits (n : Nat) (cs : List Char) : n ≤ cs.foldl (fun n c => 10 * n + digitValue c) n := by
  induction cs generalizing n with
  | nil => exact Nat.le_refl n
  | cons c cs ih =>
    have hnext := ih (10 * n + digitValue c)
    rw [List.foldl_cons]
    omega

theorem gather_eq {n : Nat} {cs : List Char} (h : cs.foldl (fun n c => 10 * n + digitValue c) n < wordBound) :
    gather n cs = (cs.foldl (fun n c => 10 * n + digitValue c) n, []) := by
  induction cs generalizing n with
  | nil => rfl
  | cons c cs ih =>
    rw [List.foldl_cons] at h ⊢
    rw [gather, if_pos ((le_digits _ cs).trans_lt h), ih h]

/-- the powers of ten up to 10^22 are not rounded -/
theorem powerOfTen_small : ∀ k ≤ 22, (powerOfTen k).isNegative = false ∧
    (powerOfTen k).numerator = 10 ^ k * (powerOfTen k).denominator := by decide

theorem magnitude_powerOfTen {k : Nat} (h : k ≤ 22) : (powerOfTen k).magnitude = 10 ^ k := by
  have hpos : ((powerOfTen k).denominator : ℚ) ≠ 0 := by exact_mod_cast (powerOfTen k).denominator_ne_zero
  rw [← Binary64.numerator_div_denominator, (powerOfTen_small k h).2]
  push_cast
  field_simp

/-- a double times a small power of ten is rounded to the double that the product is near -/
theorem scale_of_near {x z : Binary64} {e : Int} (fuel : Nat) (he : e.natAbs ≤ 22) (hx : x.isNegative = false)
    (hz : z.isNegative = false) (hfinite : z.isFinite = true) (h : z.Near (x.magnitude * 10 ^ e)) :
    scale (fuel + 1) x e = some z := by
  obtain ⟨hpower, hnumerator⟩ := powerOfTen_small e.natAbs he
  have hmagnitude := magnitude_powerOfTen he
  have hsign : z.isNegative = (x.isNegative != (powerOfTen e.natAbs).isNegative) := by
    rw [hx, hz, hpower]
    rfl
  rw [scale, if_pos (by omega)]
  by_cases hpos : 0 ≤ e
  · rw [if_pos hpos]
    have hexponent : (10 : ℚ) ^ e = 10 ^ e.natAbs := by
      rw [← zpow_natCast]
      congr 1
      omega
    rw [hexponent, ← hmagnitude] at h
    dsimp only
    rw [Binary64.mul_of_near hfinite hsign h, if_pos hfinite]
  · rw [if_neg hpos]
    have hexponent : (10 : ℚ) ^ e = (10 ^ e.natAbs)⁻¹ := by
      rw [← zpow_natCast, ← zpow_neg]
      congr 1
      omega
    have hne : (powerOfTen e.natAbs).numerator ≠ 0 := by
      rw [hnumerator]
      exact Nat.mul_ne_zero (by positivity) (powerOfTen e.natAbs).denominator_ne_zero
    rw [hexponent, ← hmagnitude, ← div_eq_mul_inv] at h
    rw [Binary64.div_of_near hfinite hne hsign h]

theorem gather_places {whole places : List Char} (h : natOfDigits (whole ++ places) < 2 ^ 53) :
    gather 0 whole = (natOfDigits whole, []) ∧
      gather (natOfDigits whole) places = (natOfDigits (whole ++ places), []) := by
  have hfold : natOfDigits (whole ++ places)
      = places.foldl (fun n c => 10 * n + digitValue c) (natOfDigits whole) := List.foldl_append
  have hwhole : natOfDigits whole ≤ natOfDigits (whole ++ places) := by
    rw [hfold]
    exact le_digits _ places
  refine ⟨gather_eq (hwhole.trans_lt (h.trans (by decide))), ?_⟩
  rw [hfold] at h ⊢
  exact gather_eq (h.trans (by decide))

/-- the magnitude is computed without the sign, which is then turned round where there is a minus -/
theorem neg_of_negative {negative : Bool} {z : Binary64} (hfinite : z.isFinite = true)
    (hsign : z.isNegative = negative) :
    (if negative then (Binary64.ofMagnitude false z.magnitudeBits).neg
      else Binary64.ofMagnitude false z.magnitudeBits) = z := by
  have hbits : z.magnitudeBits < 2 ^ 63 := (Binary64.magnitudeBits_lt hfinite).trans (by decide)
  cases negative with
  | true => rw [if_pos rfl, Binary64.neg_ofMagnitude hbits, ← hsign, Binary64.ofMagnitude_magnitudeBits]
  | false => rw [if_neg Bool.false_ne_true, ← hsign, Binary64.ofMagnitude_magnitudeBits]

/-- A numeral of at most 53 bits of digits and a small power of ten is read as the double that it is near. -/
theorem toFloat?_of_small {n : Numeral} {z : Binary64} (hdigits : natOfDigits (n.whole ++ n.places) < 2 ^ 53)
    (hpower : n.power.natAbs ≤ 22)
    (hexponent : ∀ below ds, n.exponent = some (below, ds) → natOfDigits ds ≤ exponentBound)
    (hfinite : z.isFinite = true) (hsign : z.isNegative = n.negative) (h : z.Near n.magnitude) :
    n.toFloat? = some z := by
  have hbits : z.magnitudeBits < 2 ^ 63 := (Binary64.magnitudeBits_lt hfinite).trans (by decide)
  obtain ⟨hsigned, hvalue⟩ := Binary64.ofInt_natCast hdigits
  have hscale {e : Int} (he : e = n.power) :
      scale 4 (Binary64.ofInt (natOfDigits (n.whole ++ n.places))) e
        = some (Binary64.ofMagnitude false z.magnitudeBits) := by
    rw [he]
    refine scale_of_near 3 hpower hsigned (Binary64.isNegative_ofMagnitude hbits)
      (Binary64.isFinite_ofMagnitude false hfinite) ?_
    rw [hvalue]
    exact Binary64.near_ofMagnitude false h hbits
  have hneg := neg_of_negative hfinite hsign
  obtain ⟨negative, whole, places, exponent⟩ := n
  obtain ⟨hwhole, hplaces⟩ := gather_places hdigits
  dsimp only at hwhole hplaces hscale hneg
  unfold toFloat?
  simp only [hwhole, hplaces, List.length_nil, Nat.sub_zero]
  cases exponent with
  | none =>
    dsimp only
    rw [hscale (by simp [power]), Option.map_some, hneg]
  | some part =>
    obtain ⟨below, ds⟩ := part
    have hbound := hexponent below ds rfl
    dsimp only
    rw [if_neg (by omega), hscale (by cases below <;> simp [power] <;> omega), Option.map_some, hneg]

end Numeral

theorem natOfDigits_exponent_le (negative : Bool) (n : Nat) (k : Int) :
    natOfDigits ((decimalNumeral negative n k).whole ++ (decimalNumeral negative n k).places) < 2 ^ 53 →
      (decimalNumeral negative n k).power.natAbs ≤ 22 →
      ∀ below ds, (decimalNumeral negative n k).exponent = some (below, ds) →
        natOfDigits ds ≤ Numeral.exponentBound := by
  refine decimalNumeral_cases (P := fun m => natOfDigits (m.whole ++ m.places) < 2 ^ 53 → m.power.natAbs ≤ 22 →
    ∀ below ds, m.exponent = some (below, ds) → natOfDigits ds ≤ Numeral.exponentBound) negative
    (fun _ _ _ => nofun) (fun _ _ _ _ => nofun) (fun _ _ _ _ => nofun) (fun _ _ _ _ _ => nofun) ?_
  intro top _ hdigits hpower below ds h
  dsimp only at hdigits
  rw [List.take_append_drop, natOfDigits_toString] at hdigits
  obtain ⟨-, rfl⟩ := Prod.mk.inj (Option.some.inj h)
  rw [natOfDigits_toString]
  have hlength : (toString n).toList.length ≤ 16 := by
    rw [Nat.toString_eq_ofList_toDigits, String.toList_ofList]
    exact (Nat.length_toDigits_le_iff (by decide) (by decide)).mpr (by omega)
  simp only [Numeral.power, List.length_drop, natOfDigits_toString, decide_eq_true_eq] at hpower
  unfold Numeral.exponentBound
  split at hpower <;> omega

/-- A double is read back if it is written with at most 53 bits of digits and a power of ten between 10^-22 and
10^22, as are all doubles of fifteen digits in the middle of the range. -/
theorem Binary64.readsBack_of_small {x : Binary64} (hfinite : x.isFinite = true)
    (hdigits : natOfDigits (x.numeral.whole ++ x.numeral.places) < 2 ^ 53) (hpower : x.numeral.power.natAbs ≤ 22) :
    x.ReadsBack := by
  rw [readsBack_iff]
  refine Numeral.toFloat?_of_small hdigits hpower (natOfDigits_exponent_le _ _ _ hdigits hpower) hfinite
    (negative_decimalNumeral _ _ _).symm ?_
  rw [numeral, magnitude_decimalNumeral]
  exact x.near_shortest .even

/-- of sixteen digits some are read as the double beside -/
example : ¬ (Binary64.mk 0x433FFFFFFFFFFFFF).ReadsBack := by decide

end TableAlgebra
