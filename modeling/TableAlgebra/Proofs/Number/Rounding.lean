import TableAlgebra.Proofs.Number.Shortest

/-!
# Rounding gives the double nearby

The double that a quotient is rounded to is the one it is near.  The quotient is counted in the last place of the
double, or, just below a power of two, in the finer unit below, and then the count goes up to the same place.

* `divEven_eq`               the integer nearest to a quotient, an even one at a tie;
* `isUnit_unitExponent`      the unit leaves 53 bits before the point, unless it is the least there is;
* `ofRatio_of_near`          a quotient near a finite double is rounded to it;
* `mul_of_near`, `div_of_near`   so are products and quotients of doubles;
* `ofInt_natCast`            a whole number of at most 53 bits is not rounded.
-/

namespace TableAlgebra.Binary64

/-! ## nearest integers -/

/-- the quotient at most a half away, an even one at a tie -/
theorem divEven_eq {num den m : Nat} (hden : 0 < den) (hlow : 2 * m * den ≤ 2 * num + den)
    (hhigh : 2 * num ≤ 2 * m * den + den)
    (hodd : m % 2 = 1 → 2 * m * den < 2 * num + den ∧ 2 * num < 2 * m * den + den) : divEven num den = m := by
  have hdiv := Nat.div_add_mod num den
  have hmod := Nat.mod_lt num hden
  unfold divEven
  dsimp only
  simp only [gt_iff_lt, Bool.or_eq_true, decide_eq_true_eq, Bool.and_eq_true, beq_iff_eq]
  generalize num / den = q at *
  generalize num % den = r at *
  have hdouble (a : Nat) : 2 * a * den = 2 * (den * a) := by ring
  rw [hdouble] at hlow hhigh hodd
  rcases Nat.lt_trichotomy q m with hlt | rfl | hgt
  · -- rounded up from the integer below
    have hnext : m = q + 1 := by
      by_contra hne
      have htwo : den * (q + 2) ≤ den * m := Nat.mul_le_mul_left den (by omega)
      rw [Nat.mul_add] at htwo
      omega
    subst hnext
    rw [Nat.mul_add, Nat.mul_one] at hlow hhigh hodd
    rw [if_pos]
    by_cases htie : 2 * r = den
    · refine .inr ⟨htie, ?_⟩
      by_contra heven
      have hstrict := (hodd (by omega)).1
      omega
    · exact .inl (by omega)
  · rw [if_neg]
    rintro (hup | ⟨htie, hq⟩)
    · omega
    · have hstrict := (hodd hq).2
      omega
  · have hbeyond : den * (m + 1) ≤ den * q := Nat.mul_le_mul_left den hgt
    rw [Nat.mul_add] at hbeyond
    omega

/-! ## the unit -/

section

variable {num den : Nat}

theorem two_pow_log2_le (h : num ≠ 0) : (2 : ℚ) ^ (num.log2 : Int) ≤ num := by
  rw [zpow_natCast]
  exact_mod_cast Nat.log2_self_le h

theorem lt_two_pow_log2 (num : Nat) : (num : ℚ) < 2 ^ ((num.log2 : Int) + 1) := by
  have hlt : num < 2 ^ (num.log2 + 1) := Nat.lt_log2_self
  exact_mod_cast hlt

theorem inUnits_lt_iff (num den m : Nat) (e : Int) :
    (inUnits num den e).1 < m * (inUnits num den e).2 ↔ (num : ℚ) < m * 2 ^ e * den := by
  have hpos : (0 : ℚ) < 2 ^ (-e).toNat := by positivity
  have hunits : (m : ℚ) * (den * 2 ^ e.toNat) = m * 2 ^ e * den * 2 ^ (-e).toNat := by
    rw [← zpow_mul_pow (b := 2) (by norm_num) e]
    ring
  rw [← Nat.cast_lt (α := ℚ), inUnits]
  push_cast
  rw [hunits, mul_lt_mul_iff_left₀ hpos]

/-- the unit leaves at most 53 bits before the point, and exactly as many unless it is the least there is -/
structure IsUnit (num den : Nat) (e : Int) : Prop where
  least : -1074 ≤ e
  lt : (num : ℚ) < 2 ^ 53 * 2 ^ e * den
  ge : e = -1074 ∨ (2 : ℚ) ^ 52 * 2 ^ e * den ≤ num

/-- the estimate from the lengths of the two numbers leaves at most 54 bits, and 53 unless it is the least unit -/
theorem estimate_bounds (hnum : num ≠ 0) (hden : den ≠ 0) {e : Int}
    (he : e = max ((num.log2 : Int) - den.log2 - 53) (-1074)) :
    (num : ℚ) < 2 ^ 54 * 2 ^ e * den ∧ (e = -1074 ∨ (2 : ℚ) ^ 52 * 2 ^ e * den ≤ num) := by
  constructor
  · calc (num : ℚ) < 2 ^ ((num.log2 : Int) + 1) := lt_two_pow_log2 num
      _ ≤ 2 ^ (54 + e + den.log2) := zpow_le_zpow_right₀ (by norm_num) (by omega)
      _ = 2 ^ 54 * 2 ^ e * 2 ^ (den.log2 : Int) := by
        rw [zpow_add₀ (by norm_num), zpow_add₀ (by norm_num)]
        norm_num
      _ ≤ 2 ^ 54 * 2 ^ e * den := mul_le_mul_of_nonneg_left (two_pow_log2_le hden) (by positivity)
  · by_cases hclamped : e = -1074
    · exact .inl hclamped
    · right
      calc (2 : ℚ) ^ 52 * 2 ^ e * den ≤ 2 ^ 52 * 2 ^ e * 2 ^ ((den.log2 : Int) + 1) :=
            mul_le_mul_of_nonneg_left (lt_two_pow_log2 den).le (by positivity)
        _ = 2 ^ (52 + e + ((den.log2 : Int) + 1)) := by
          rw [zpow_add₀ (by norm_num) (52 + e), zpow_add₀ (by norm_num) 52 e]
          norm_num
        _ = 2 ^ (num.log2 : Int) := by congr 1; omega
        _ ≤ num := two_pow_log2_le hnum

theorem isUnit_unitExponent (hnum : num ≠ 0) (hden : den ≠ 0) : IsUnit num den (unitExponent num den) := by
  unfold unitExponent
  dsimp only
  generalize he : max ((num.log2 : Int) - den.log2 - 53) (-1074) = e
  obtain ⟨hupper, hlower⟩ := estimate_bounds hnum hden he.symm
  have hleast : -1074 ≤ e := by omega
  have hiff := inUnits_lt_iff num den (2 ^ 53) e
  have hunitPos : 0 < (inUnits num den e).2 := Nat.mul_pos (Nat.pos_of_ne_zero hden) (Nat.two_pow_pos _)
  push_cast at hiff
  by_cases hfits : (inUnits num den e).1 / (inUnits num den e).2 < 2 ^ 53
  · rw [if_pos hfits]
    exact ⟨hleast, hiff.mp ((Nat.div_lt_iff_lt_mul hunitPos).mp hfits), hlower⟩
  · rw [if_neg hfits]
    have hge : (2 : ℚ) ^ 53 * 2 ^ e * den ≤ num := by
      by_contra hlt
      exact hfits ((Nat.div_lt_iff_lt_mul hunitPos).mpr (hiff.mpr (not_le.mp hlt)))
    have hnext : (2 : ℚ) ^ (e + 1) = 2 * 2 ^ e := by rw [zpow_add_one₀ (by norm_num), mul_comm]
    refine ⟨by omega, ?_, .inr ?_⟩
    · rw [hnext]
      linarith
    · rw [hnext]
      linarith

/-- a quotient within half a unit of so many units is rounded to them -/
theorem divEven_inUnits {m : Nat} {e : Int} (hden : den ≠ 0) (hlow : (2 * m - 1) * 2 ^ e * (den : ℚ) ≤ 2 * num)
    (hhigh : (2 * num : ℚ) ≤ (2 * m + 1) * 2 ^ e * den)
    (hodd : m % 2 = 1 → (2 * m - 1) * 2 ^ e * (den : ℚ) < 2 * num ∧ (2 * num : ℚ) < (2 * m + 1) * 2 ^ e * den) :
    divEven (inUnits num den e).1 (inUnits num den e).2 = m := by
  have hscale : (0 : ℚ) < 2 ^ (-e).toNat := by positivity
  have hunit : (den : ℚ) * 2 ^ e.toNat = den * 2 ^ e * 2 ^ (-e).toNat := by
    rw [mul_assoc, zpow_mul_pow (by norm_num)]
  have hpoint : (2 * ((inUnits num den e).1 : ℚ)) = 2 * num * 2 ^ (-e).toNat := by
    simp [inUnits, mul_assoc]
  have hden' : (((inUnits num den e).2 : Nat) : ℚ) = den * 2 ^ e * 2 ^ (-e).toNat := by
    rw [← hunit]
    simp [inUnits]
  have hpos : 0 < (inUnits num den e).2 := Nat.mul_pos (Nat.pos_of_ne_zero hden) (Nat.two_pow_pos _)
  -- the comparisons of naturals, over the scale
  have hle : 2 * m * (inUnits num den e).2 ≤ 2 * (inUnits num den e).1 + (inUnits num den e).2 := by
    have hscaled := mul_le_mul_of_nonneg_right hlow hscale.le
    rw [← Nat.cast_le (α := ℚ)]
    push_cast
    rw [hpoint, hden']
    linarith
  have hge : 2 * (inUnits num den e).1 ≤ 2 * m * (inUnits num den e).2 + (inUnits num den e).2 := by
    have hscaled := mul_le_mul_of_nonneg_right hhigh hscale.le
    rw [← Nat.cast_le (α := ℚ)]
    push_cast
    rw [hpoint, hden']
    linarith
  refine divEven_eq hpos hle hge fun h => ?_
  obtain ⟨hlow, hhigh⟩ := hodd h
  have hscaledLow := mul_lt_mul_of_pos_right hlow hscale
  have hscaledHigh := mul_lt_mul_of_pos_right hhigh hscale
  constructor
  · rw [← Nat.cast_lt (α := ℚ)]
    push_cast
    rw [hpoint, hden']
    linarith
  · rw [← Nat.cast_lt (α := ℚ)]
    push_cast
    rw [hpoint, hden']
    linarith

end

/-! ## the bits of a magnitude -/

/-- the bits without the sign: doubles are counted through, so a significand at its end goes on in the next exponent -/
def magnitudeBits (x : Binary64) : Nat := (x.exponent + 1074).toNat * 2 ^ 52 + x.significand

theorem magnitudeBits_eq (x : Binary64) : x.magnitudeBits = x.biasedExponent * 2 ^ 52 + x.fraction := by
  unfold magnitudeBits exponent significand
  split <;> omega

theorem ofMagnitude_magnitudeBits (x : Binary64) : ofMagnitude x.isNegative x.magnitudeBits = x := by
  have hlt := x.bits.toNat_lt
  have hbits : x.bits.toNat = (if x.isNegative then 2 ^ 63 else 0) + x.magnitudeBits := by
    rw [magnitudeBits_eq]
    unfold isNegative biasedExponent fraction
    simp only [decide_eq_true_eq]
    split <;> omega
  obtain ⟨bits⟩ := x
  unfold ofMagnitude
  rw [← hbits]
  exact congrArg mk (UInt64.ofNat_toNat)

theorem magnitudeBits_lt {x : Binary64} (hfinite : x.isFinite = true) : x.magnitudeBits < infinityBits := by
  have hbiased : x.biasedExponent < 2 ^ 11 := Nat.mod_lt _ (by norm_num)
  have hfraction : x.fraction < 2 ^ 52 := Nat.mod_lt _ (by norm_num)
  unfold isFinite at hfinite
  rw [bne_iff_ne] at hfinite
  rw [magnitudeBits_eq, infinityBits]
  omega

/-! ## rounding to a double nearby -/

section

variable {x : Binary64} {num den : Nat}

theorem Near.significand_eq_zero (h : x.Near 0) : x.significand = 0 := by
  by_contra hm
  have hpos : (0 : ℚ) < 2 ^ x.exponent := by positivity
  have hone : (1 : ℚ) ≤ x.significand := by exact_mod_cast Nat.pos_of_ne_zero hm
  have hquarters : 0 < x.lowerQuarters := by linarith [x.le_lowerQuarters]
  linarith [h.low, mul_pos hquarters hpos]

/-- what is near a double, over the denominator of a quotient -/
theorem Near.ends (hden : den ≠ 0) (h : x.Near (num / den)) :
    x.lowerQuarters * 2 ^ x.exponent * den ≤ 4 * num ∧
      (4 * num : ℚ) ≤ (4 * x.significand + 2) * 2 ^ x.exponent * den ∧
      (x.significand % 2 = 1 → x.lowerQuarters * 2 ^ x.exponent * den < 4 * num ∧
        (4 * num : ℚ) < (4 * x.significand + 2) * 2 ^ x.exponent * den) := by
  have hpos : (0 : ℚ) < den := by exact_mod_cast Nat.pos_of_ne_zero hden
  obtain ⟨hlow, hhigh, hlowOdd, hhighOdd⟩ := h
  rw [← mul_div_assoc, le_div_iff₀ hpos] at hlow
  rw [← mul_div_assoc, div_le_iff₀ hpos] at hhigh
  refine ⟨hlow, hhigh, fun hodd => ⟨?_, ?_⟩⟩
  · have hstrict := hlowOdd hodd
    rwa [← mul_div_assoc, lt_div_iff₀ hpos] at hstrict
  · have hstrict := hhighOdd hodd
    rwa [← mul_div_assoc, div_lt_iff₀ hpos] at hstrict

/-- a unit that is larger than another is at least twice as large -/
theorem two_mul_unit_le {a b : Int} (h : a < b) (den : Nat) : 2 * ((2 : ℚ) ^ a * den) ≤ 2 ^ b * den := by
  rw [← mul_assoc, ← zpow_one_add₀ (by norm_num)]
  exact mul_le_mul_of_nonneg_right (zpow_le_zpow_right₀ (by norm_num) (by omega)) (Nat.cast_nonneg den)

theorem unit_le_of_near (hden : den ≠ 0) (h : x.Near (num / den)) {e : Int} (hunit : IsUnit num den e) :
    e ≤ x.exponent := by
  by_contra he
  have hpos : (0 : ℚ) < den := by exact_mod_cast Nat.pos_of_ne_zero hden
  have hplace : (0 : ℚ) < 2 ^ x.exponent * den := by positivity
  obtain ⟨-, hhigh, -⟩ := h.ends hden
  have hge := hunit.ge.resolve_left (by have := x.exponent_ge; omega)
  rw [mul_assoc] at hhigh hge
  have htwice := two_mul_unit_le (not_le.mp he) den
  have hm : (x.significand : ℚ) + 1 ≤ 2 ^ 53 := by exact_mod_cast x.significand_lt
  have hends : (4 * (x.significand : ℚ) + 2) * (2 ^ x.exponent * den) ≤ (2 ^ 55 - 2) * (2 ^ x.exponent * den) :=
    mul_le_mul_of_nonneg_right (by linarith) hplace.le
  linarith

/-- A quotient near a double is counted in its last place, or it is just below a power of two and counted in the unit
below. -/
theorem unit_of_near (hden : den ≠ 0) (h : x.Near (num / den)) {e : Int} (hunit : IsUnit num den e) :
    e = x.exponent ∨ e = x.exponent - 1 ∧ x.significand = 2 ^ 52 ∧ 1 < x.biasedExponent := by
  rcases (unit_le_of_near hden h hunit).eq_or_lt with he | he
  · exact .inl he
  right
  have hpos : (0 : ℚ) < den := by exact_mod_cast Nat.pos_of_ne_zero hden
  have hplace : (0 : ℚ) < 2 ^ x.exponent * den := by positivity
  obtain ⟨hlow, -, -⟩ := h.ends hden
  have hlt := hunit.lt
  rw [mul_assoc] at hlow hlt
  have hleast := hunit.least
  obtain ⟨hm, hbiased⟩ := significand_ge_of_exponent (x := x) (by omega)
  have hhalf := two_mul_unit_le he den
  refine ⟨?_, ?_, hbiased⟩
  · by_contra hne
    have hquarter := two_mul_unit_le (show e < x.exponent - 1 by omega) den
    have hhalf' := two_mul_unit_le (show x.exponent - 1 < x.exponent by omega) den
    have hquarters := boundary_le_lowerQuarters (x := x) (by omega)
    have hends := mul_le_mul_of_nonneg_right hquarters hplace.le
    linarith
  · by_contra hne
    have hm' : (2 : ℚ) ^ 52 + 1 ≤ x.significand := by
      exact_mod_cast Nat.succ_le_of_lt (lt_of_le_of_ne hm (Ne.symm hne))
    have hends : ((2 : ℚ) ^ 54 + 2) * (2 ^ x.exponent * den) ≤ x.lowerQuarters * (2 ^ x.exponent * den) :=
      mul_le_mul_of_nonneg_right (by linarith [x.le_lowerQuarters]) hplace.le
    linarith

theorem divEven_of_near (hden : den ≠ 0) (h : x.Near (num / den)) :
    divEven (inUnits num den x.exponent).1 (inUnits num den x.exponent).2 = x.significand := by
  obtain ⟨hlow, hhigh, hodd⟩ := h.ends hden
  have hpos : (0 : ℚ) < 2 ^ x.exponent * den := by positivity
  have hends : (4 * (x.significand : ℚ) - 2) * 2 ^ x.exponent * den ≤ x.lowerQuarters * 2 ^ x.exponent * den := by
    rw [mul_assoc, mul_assoc]
    exact mul_le_mul_of_nonneg_right x.le_lowerQuarters hpos.le
  refine divEven_inUnits hden (by linarith) (by linarith) fun h => ?_
  obtain ⟨hlow, hhigh⟩ := hodd h
  exact ⟨by linarith, by linarith⟩

/-- counted in the unit below, a quotient just below a power of two goes up to it -/
theorem divEven_below (hden : den ≠ 0) (h : x.Near (num / den)) (hm : x.significand = 2 ^ 52)
    (hbiased : 1 < x.biasedExponent) (hunit : IsUnit num den (x.exponent - 1)) :
    divEven (inUnits num den (x.exponent - 1)).1 (inUnits num den (x.exponent - 1)).2 = 2 ^ 53 := by
  obtain ⟨hlow, -, -⟩ := h.ends hden
  have hquarters : x.lowerQuarters = 2 ^ 54 - 1 := by
    unfold lowerQuarters
    rw [if_pos ⟨hm, hbiased⟩, hm]
    norm_num
  have hhalf : (2 : ℚ) ^ x.exponent = 2 * 2 ^ (x.exponent - 1) := by
    rw [← zpow_one_add₀ (by norm_num)]
    congr 1
    omega
  have hlt := hunit.lt
  have hpos : (0 : ℚ) < 2 ^ (x.exponent - 1) * den := by positivity
  rw [hquarters, hhalf] at hlow
  refine divEven_inUnits hden ?_ ?_ fun h => absurd h (by norm_num)
  · push_cast
    linarith
  · push_cast
    linarith

theorem magnitudeBits_eq_zero (h : x.Near 0) : x.magnitudeBits = 0 := by
  have hm := h.significand_eq_zero
  have hleast := x.exponent_ge
  have he : x.exponent = -1074 := by
    by_contra he
    have hge := (significand_ge_of_exponent (x := x) (by omega)).1
    omega
  rw [magnitudeBits, hm, he]
  rfl

theorem ofRatio_of_near (hfinite : x.isFinite = true) (hden : den ≠ 0) (h : x.Near (num / den)) :
    ofRatio x.isNegative num den = x := by
  unfold ofRatio
  simp only [beq_iff_eq]
  split
  · rename_i hnum
    rw [hnum, Nat.cast_zero, zero_div] at h
    rw [← magnitudeBits_eq_zero h, ofMagnitude_magnitudeBits]
  · rename_i hnum
    have hunit := isUnit_unitExponent hnum hden
    have hbits : (unitExponent num den + 1074).toNat * 2 ^ 52
        + divEven (inUnits num den (unitExponent num den)).1 (inUnits num den (unitExponent num den)).2
        = x.magnitudeBits := by
      rcases unit_of_near hden h hunit with he | ⟨he, hm, hbiased⟩
      · rw [he, divEven_of_near hden h, magnitudeBits]
      · have hleast := hunit.least
        rw [he] at hunit hleast ⊢
        rw [divEven_below hden h hm hbiased hunit, magnitudeBits, hm]
        omega
    rw [hbits, Nat.min_eq_left (magnitudeBits_lt hfinite).le, ofMagnitude_magnitudeBits]

end

/-! ## doubles that are not rounded -/

section

variable {x y : Binary64} {num den : Nat}

def magnitude (x : Binary64) : ℚ := x.significand * 2 ^ x.exponent

theorem numerator_div_denominator (x : Binary64) : (x.numerator : ℚ) / x.denominator = x.magnitude := by
  have hpos : (0 : ℚ) < 2 ^ (-x.exponent).toNat := by positivity
  unfold numerator denominator magnitude
  push_cast
  rw [div_eq_iff hpos.ne', ← zpow_mul_pow (b := 2) (by norm_num) x.exponent]
  ring

theorem denominator_ne_zero (x : Binary64) : x.denominator ≠ 0 := (Nat.two_pow_pos _).ne'

theorem near_magnitude (x : Binary64) : x.Near x.magnitude := by
  have hpos : (0 : ℚ) < 2 ^ x.exponent := by positivity
  have hquarters : x.lowerQuarters < 4 * x.significand := by
    unfold lowerQuarters
    split <;> linarith
  have hlow : x.lowerQuarters * 2 ^ x.exponent < 4 * x.magnitude := by
    rw [magnitude, ← mul_assoc]
    exact mul_lt_mul_of_pos_right hquarters hpos
  have hhigh : 4 * x.magnitude < (4 * x.significand + 2) * 2 ^ x.exponent := by
    rw [magnitude, ← mul_assoc]
    exact mul_lt_mul_of_pos_right (by linarith) hpos
  exact ⟨hlow.le, hhigh.le, fun _ => hlow, fun _ => hhigh⟩

theorem mul_of_near {z : Binary64} (hfinite : z.isFinite = true)
    (hsign : z.isNegative = (x.isNegative != y.isNegative)) (h : z.Near (x.magnitude * y.magnitude)) :
    x.mul y = z := by
  rw [← x.numerator_div_denominator, ← y.numerator_div_denominator, div_mul_div_comm, ← Nat.cast_mul,
    ← Nat.cast_mul] at h
  unfold mul
  rw [← hsign]
  exact ofRatio_of_near hfinite (Nat.mul_ne_zero x.denominator_ne_zero y.denominator_ne_zero) h

theorem div_of_near {z : Binary64} (hfinite : z.isFinite = true) (hy : y.numerator ≠ 0)
    (hsign : z.isNegative = (x.isNegative != y.isNegative)) (h : z.Near (x.magnitude / y.magnitude)) :
    x.div y = z := by
  rw [← x.numerator_div_denominator, ← y.numerator_div_denominator, div_div_div_eq, ← Nat.cast_mul,
    ← Nat.cast_mul] at h
  unfold div
  rw [← hsign]
  exact ofRatio_of_near hfinite (Nat.mul_ne_zero x.denominator_ne_zero hy) h

end

/-! ## the other sign -/

section

variable {negative : Bool} {m : Nat}

theorem toNat_ofMagnitude (h : m < 2 ^ 63) :
    (ofMagnitude negative m).bits.toNat = (if negative then 2 ^ 63 else 0) + m := by
  unfold ofMagnitude
  dsimp only
  rw [UInt64.toNat_ofNat']
  cases negative with
  | true =>
    simp only [if_true]
    omega
  | false =>
    simp only [Bool.false_eq_true, if_false]
    omega

theorem isNegative_ofMagnitude (h : m < 2 ^ 63) : (ofMagnitude negative m).isNegative = negative := by
  unfold isNegative
  rw [toNat_ofMagnitude h]
  cases negative with
  | true => simp
  | false =>
    rw [decide_eq_false_iff_not]
    simp only [Bool.false_eq_true, if_false]
    omega

theorem biasedExponent_ofMagnitude (h : m < 2 ^ 63) :
    (ofMagnitude negative m).biasedExponent = m / 2 ^ 52 := by
  unfold biasedExponent
  rw [toNat_ofMagnitude h]
  split <;> omega

theorem fraction_ofMagnitude (h : m < 2 ^ 63) : (ofMagnitude negative m).fraction = m % 2 ^ 52 := by
  unfold fraction
  rw [toNat_ofMagnitude h]
  split <;> omega

end

theorem neg_ofMagnitude {m : Nat} (h : m < 2 ^ 63) : (ofMagnitude false m).neg = ofMagnitude true m := by
  have hxor : m ^^^ 2 ^ 63 = 2 ^ 63 + m := by
    apply Nat.eq_of_testBit_eq
    intro i
    rw [Nat.testBit_xor, Nat.testBit_two_pow]
    rcases Nat.lt_trichotomy i 63 with hi | rfl | hi
    · rw [Nat.testBit_two_pow_add_gt hi, decide_eq_false (by omega), Bool.xor_false]
    · rw [Nat.testBit_two_pow_add_eq, decide_eq_true rfl, Bool.xor_true]
    · have hlow : m < 2 ^ i := h.trans_le (Nat.pow_le_pow_right (by decide) hi.le)
      have hhigh : 2 ^ 63 + m < 2 ^ i := by
        have hnext : 2 ^ 64 ≤ 2 ^ i := Nat.pow_le_pow_right (by decide) hi
        omega
      rw [Nat.testBit_lt_two_pow hlow, Nat.testBit_lt_two_pow hhigh, decide_eq_false (by omega), Bool.xor_false]
  have hbits : (ofMagnitude false m).bits ^^^ 0x8000000000000000 = (ofMagnitude true m).bits := by
    apply UInt64.toNat_inj.mp
    rw [UInt64.toNat_xor, toNat_ofMagnitude h, toNat_ofMagnitude h]
    have hmask : (0x8000000000000000 : UInt64).toNat = 2 ^ 63 := rfl
    rw [hmask, if_neg Bool.false_ne_true, if_pos rfl, Nat.zero_add, hxor]
  exact congrArg mk hbits

theorem isFinite_ofMagnitude {x : Binary64} (negative : Bool) (hfinite : x.isFinite = true) :
    (ofMagnitude negative x.magnitudeBits).isFinite = true := by
  have hfits := magnitudeBits_lt hfinite
  unfold infinityBits at hfits
  unfold isFinite
  rw [biasedExponent_ofMagnitude (by omega), bne_iff_ne]
  omega

/-- what is near a double does not depend on its sign -/
theorem near_ofMagnitude {x : Binary64} {v : ℚ} (negative : Bool) (h : x.Near v) (hm : x.magnitudeBits < 2 ^ 63) :
    (ofMagnitude negative x.magnitudeBits).Near v := by
  have hfraction : x.fraction < 2 ^ 52 := Nat.mod_lt _ (by norm_num)
  have hbits := x.magnitudeBits_eq
  have hbiased : (ofMagnitude negative x.magnitudeBits).biasedExponent = x.biasedExponent := by
    rw [biasedExponent_ofMagnitude hm]
    omega
  have hfraction : (ofMagnitude negative x.magnitudeBits).fraction = x.fraction := by
    rw [fraction_ofMagnitude hm]
    omega
  have hsignificand : (ofMagnitude negative x.magnitudeBits).significand = x.significand := by
    unfold significand
    rw [hbiased, hfraction]
  have hexponent : (ofMagnitude negative x.magnitudeBits).exponent = x.exponent := by
    unfold exponent
    rw [hbiased]
  have hlower : (ofMagnitude negative x.magnitudeBits).lowerQuarters = x.lowerQuarters := by
    unfold lowerQuarters
    rw [hbiased, hsignificand]
  obtain ⟨hlow, hhigh, hlowOdd, hhighOdd⟩ := h
  exact ⟨by rwa [hlower, hexponent], by rwa [hsignificand, hexponent], by rwa [hlower, hexponent, hsignificand],
    by rwa [hexponent, hsignificand]⟩

/-! ## whole numbers of 53 bits -/

theorem magnitude_eq_zero {x : Binary64} (h : x.significand = 0) : x.magnitude = 0 := by
  rw [magnitude, h, Nat.cast_zero, zero_mul]

/-- a whole number of at most 53 bits is a double -/
theorem exists_magnitude {n : Nat} (h : n < 2 ^ 53) :
    ∃ x : Binary64, x.isFinite = true ∧ x.isNegative = false ∧ x.magnitude = n := by
  by_cases hn : n = 0
  · subst hn
    exact ⟨ofMagnitude false 0, by decide, by decide, magnitude_eq_zero (by decide)⟩
  · -- shifted up until it has all its bits
    obtain ⟨j, hj⟩ : ∃ j, n.log2 + j = 52 := ⟨52 - n.log2, by have := (Nat.log2_lt hn).mpr h; omega⟩
    have hlow : 2 ^ 52 ≤ n * 2 ^ j := by
      rw [← hj, pow_add]
      exact Nat.mul_le_mul_right _ (Nat.log2_self_le hn)
    have hhigh : n * 2 ^ j < 2 ^ 53 := by
      have hpow : 2 ^ 53 = 2 ^ (n.log2 + 1) * 2 ^ j := by
        rw [← pow_add]
        congr 1
        omega
      rw [hpow]
      exact Nat.mul_lt_mul_of_pos_right Nat.lt_log2_self (Nat.two_pow_pos j)
    generalize hm : (1074 - j) * 2 ^ 52 + n * 2 ^ j = m
    have hlt : m < 2 ^ 63 := by omega
    have hbiased : (ofMagnitude false m).biasedExponent = m / 2 ^ 52 := biasedExponent_ofMagnitude hlt
    have hfraction : (ofMagnitude false m).fraction = m % 2 ^ 52 := fraction_ofMagnitude hlt
    refine ⟨ofMagnitude false m, ?_, isNegative_ofMagnitude hlt, ?_⟩
    · unfold isFinite
      rw [hbiased, bne_iff_ne]
      omega
    · have hsignificand : (ofMagnitude false m).significand = n * 2 ^ j := by
        unfold significand
        rw [hbiased, hfraction, if_neg (by omega)]
        omega
      have hexponent : (ofMagnitude false m).exponent = -j := by
        unfold exponent
        rw [hbiased]
        omega
      rw [magnitude, hsignificand, hexponent, zpow_neg, zpow_natCast]
      push_cast
      field_simp

theorem ofInt_natCast {n : Nat} (h : n < 2 ^ 53) :
    (ofInt n).isNegative = false ∧ (ofInt n).magnitude = n := by
  obtain ⟨x, hfinite, hsign, hvalue⟩ := exists_magnitude h
  have hnear := x.near_magnitude
  have hone : (n : ℚ) = (n : ℚ) / (1 : ℕ) := by simp
  rw [hvalue, hone] at hnear
  have hx : ofInt n = x := by
    have hneg : decide ((n : Int) < 0) = x.isNegative := by
      rw [hsign, decide_eq_false_iff_not]
      omega
    unfold ofInt
    rw [hneg]
    exact ofRatio_of_near hfinite one_ne_zero hnear
  rw [hx]
  exact ⟨hsign, hvalue⟩

end TableAlgebra.Binary64
