import Mathlib.Algebra.Order.Field.Power
import Mathlib.Data.Rat.Cast.Order
import Mathlib.Tactic.FieldSimp
import Mathlib.Tactic.Positivity
import Mathlib.Tactic.Ring
import TableAlgebra.Proofs.Number.Whole

/-!
# Shortest decimals tell doubles apart

The search for the shortest digits always ends with a decimal that rounds to the double: on the grid of the
twentieth digit the next point above the value is less than half a unit in the last place away.  The intervals
around two doubles of different magnitude have at most an end in common, and it belongs to one of them only, so
their shortest decimals are different, in the order of the doubles.

* `Interval.search_contains`   the search ends in the interval, if a grid within its reach has a hit;
* `near_shortest`              the shortest decimal rounds to the double;
* `Near.lt`                    what is near two doubles is in the order of their magnitudes;
* `eq_of_shortestValue`        doubles of one sign and one shortest decimal are the same.
-/

namespace TableAlgebra.Binary64

/-! ## powers -/

/-- a power with an integer exponent is the quotient of the two natural powers it is computed from -/
theorem zpow_mul_pow {b : ℚ} (hb : b ≠ 0) (k : Int) : b ^ k * b ^ (-k).toNat = b ^ k.toNat := by
  rw [← zpow_natCast, ← zpow_natCast, ← zpow_add₀ hb]
  congr 1
  omega

/-- the end of an interval, and a point of a decimal grid, over one denominator -/
theorem end_scaled (a : ℚ) (e k : Int) :
    a * 2 ^ e.toNat * 10 ^ (-k).toNat = a * 2 ^ e * (2 ^ (-e).toNat * 10 ^ (-k).toNat) := by
  rw [← zpow_mul_pow (b := 2) (by norm_num) e]
  ring

theorem point_scaled (a : ℚ) (e k : Int) :
    a * 10 ^ k.toNat * (4 * 2 ^ (-e).toNat) = 4 * (a * 10 ^ k) * (2 ^ (-e).toNat * 10 ^ (-k).toNat) := by
  rw [← zpow_mul_pow (b := 10) (by norm_num) k]
  ring

/-- A power of ten is at most a power of two if the exponents are as far apart as 2^10 and 10^3 above one, and
as 2^53 and 10^16 below it. -/
theorem ten_zpow_le {k e : Int} (hup : 0 ≤ k → 10 * k ≤ 3 * e) (hdown : k < 0 → 53 * k ≤ 16 * e) :
    (10 : ℚ) ^ k ≤ 2 ^ e := by
  have hten : (0 : ℚ) ≤ 10 ^ k := zpow_nonneg (by norm_num) k
  have htwo : (0 : ℚ) ≤ 2 ^ e := zpow_nonneg (by norm_num) e
  rcases le_or_gt 0 k with hk | hk
  · rw [← pow_le_pow_iff_left₀ hten htwo (by decide : 3 ≠ 0), ← zpow_natCast, ← zpow_mul, ← zpow_natCast,
      ← zpow_mul]
    calc (10 : ℚ) ^ (k * (3 : ℕ)) = (10 ^ 3) ^ k := by rw [← zpow_natCast, ← zpow_mul, mul_comm]
      _ ≤ (2 ^ 10) ^ k := zpow_le_zpow_left₀ hk (by norm_num) (by norm_num)
      _ = 2 ^ (10 * k) := by rw [← zpow_natCast, ← zpow_mul]; rfl
      _ ≤ 2 ^ (e * (3 : ℕ)) := zpow_le_zpow_right₀ (by norm_num) (by have := hup hk; push_cast; omega)
  · rw [← pow_le_pow_iff_left₀ hten htwo (by decide : 16 ≠ 0), ← zpow_natCast, ← zpow_mul, ← zpow_natCast,
      ← zpow_mul]
    calc (10 : ℚ) ^ (k * (16 : ℕ)) = (10 ^ 16) ^ k := by rw [← zpow_natCast, ← zpow_mul, mul_comm]
      _ ≤ (2 ^ 53) ^ k := by
        rw [← inv_le_inv₀ (by positivity) (by positivity), ← zpow_neg, ← zpow_neg]
        exact zpow_le_zpow_left₀ (by omega) (by norm_num) (by norm_num)
      _ = 2 ^ (53 * k) := by rw [← zpow_natCast, ← zpow_mul]; rfl
      _ ≤ 2 ^ (e * (16 : ℕ)) := zpow_le_zpow_right₀ (by norm_num) (by have := hdown hk; push_cast; omega)

/-! ## the search -/

namespace Interval

variable {i : Interval} {tie : TieRule}

/-- a grid finer than the upper half of the interval has a hit: its next point above the value -/
theorem isSome_pick? {k : Int} (hlow : i.low ≤ i.value) (hpos : 0 < i.denominator)
    (hstep : i.value * 10 ^ (-k).toNat + i.denominator * 10 ^ k.toNat < i.high * 10 ^ (-k).toNat) :
    (i.pick? tie k).isSome = true := by
  have hunit : 0 < i.denominator * 10 ^ k.toNat := by positivity
  have hbelow := Nat.mul_div_le (i.value * 10 ^ (-k).toNat) (i.denominator * 10 ^ k.toNat)
  have habove := Nat.lt_mul_div_succ (i.value * 10 ^ (-k).toNat) hunit
  have hlow' := Nat.mul_le_mul_right (10 ^ (-k).toNat) hlow
  unfold pick?
  dsimp only
  generalize i.value * 10 ^ (-k).toNat / (i.denominator * 10 ^ k.toNat) = q at *
  have hnext : (q + 1) * 10 ^ k.toNat * i.denominator = i.denominator * 10 ^ k.toNat * q
      + i.denominator * 10 ^ k.toNat := by ring
  have hupper : i.contains ((q + 1) * 10 ^ k.toNat) (10 ^ (-k).toNat) = true := by
    rw [Nat.mul_succ] at habove
    unfold contains
    rw [hnext]
    split <;> simp only [Bool.and_eq_true, decide_eq_true_eq] <;> omega
  rw [hupper]
  cases i.contains (q * 10 ^ k.toNat) (10 ^ (-k).toNat) <;> rfl

/-- the search ends in the interval, if one of the grids it comes by has a hit -/
theorem search_contains {k : Int} {j fuel : Nat} (hj : j < fuel) (h : (i.pick? tie (k - j)).isSome = true) :
    i.contains ((i.search tie fuel k).1 * 10 ^ (i.search tie fuel k).2.toNat)
      (10 ^ (-(i.search tie fuel k).2).toNat) = true := by
  induction fuel generalizing k j with
  | zero => exact absurd hj (Nat.not_lt_zero j)
  | succ fuel ih =>
    rw [search]
    cases hpick : i.pick? tie k with
    | some n => exact contains_of_pick? hpick
    | none =>
      cases j with
      | zero =>
        rw [Nat.cast_zero, sub_zero, hpick] at h
        cases h
      | succ j =>
        have hk : k - (j + 1 : Nat) = k - 1 - j := by omega
        rw [hk] at h
        exact ih (Nat.lt_of_succ_lt_succ hj) h

end Interval

/-! ## numbers near a double -/

/-- four times the lower end of the interval around a double, in units in the last place -/
def lowerQuarters (x : Binary64) : ℚ :=
  4 * x.significand - if x.significand = 2 ^ 52 ∧ 1 < x.biasedExponent then 1 else 2

/-- The number rounds to the magnitude of the double: it is at most half a unit in the last place away, or a quarter
below a power of two, and a tie goes to the even neighbour. -/
structure Near (x : Binary64) (v : ℚ) : Prop where
  low : x.lowerQuarters * 2 ^ x.exponent ≤ 4 * v
  high : 4 * v ≤ (4 * x.significand + 2) * 2 ^ x.exponent
  low_odd : x.significand % 2 = 1 → x.lowerQuarters * 2 ^ x.exponent < 4 * v
  high_odd : x.significand % 2 = 1 → 4 * v < (4 * x.significand + 2) * 2 ^ x.exponent

section

variable {x y : Binary64} {tie : TieRule}

theorem cast_low (hm : x.significand ≠ 0) :
    (x.interval.low : ℚ) = x.lowerQuarters * 2 ^ x.exponent.toNat := by
  unfold interval lowerQuarters
  simp only [beq_iff_eq, Bool.and_eq_true, decide_eq_true_eq, gt_iff_lt]
  push_cast
  congr 1
  split
  · rw [Nat.cast_sub (by omega)]
    push_cast
    ring
  · rw [Nat.cast_sub (by omega)]
    push_cast
    ring

theorem near_of_contains (hm : x.significand ≠ 0) {n : Nat} {k : Int}
    (h : x.interval.contains (n * 10 ^ k.toNat) (10 ^ (-k).toNat) = true) : x.Near (n * 10 ^ k) := by
  have hscale : (0 : ℚ) < 2 ^ (-x.exponent).toNat * 10 ^ (-k).toNat := by positivity
  have hlow : ((x.interval.low * 10 ^ (-k).toNat : ℕ) : ℚ)
      = x.lowerQuarters * 2 ^ x.exponent * (2 ^ (-x.exponent).toNat * 10 ^ (-k).toNat) := by
    rw [← end_scaled, ← cast_low hm]
    push_cast
    rfl
  have hhigh : ((x.interval.high * 10 ^ (-k).toNat : ℕ) : ℚ)
      = (4 * x.significand + 2) * 2 ^ x.exponent * (2 ^ (-x.exponent).toNat * 10 ^ (-k).toNat) := by
    rw [← end_scaled]
    simp [interval]
  have hpoint : ((n * 10 ^ k.toNat * x.interval.denominator : ℕ) : ℚ)
      = 4 * (n * 10 ^ k) * (2 ^ (-x.exponent).toNat * 10 ^ (-k).toNat) := by
    rw [← point_scaled]
    simp [interval, denominator]
  have hclosed : x.interval.closed = (x.significand % 2 == 0) := rfl
  unfold Interval.contains at h
  rw [hclosed] at h
  by_cases hodd : x.significand % 2 = 1
  · rw [if_neg (by simp [hodd])] at h
    simp only [Bool.and_eq_true, decide_eq_true_eq] at h
    obtain ⟨hbelow, habove⟩ := h
    rw [← Nat.cast_lt (α := ℚ), hlow, hpoint, mul_lt_mul_iff_left₀ hscale] at hbelow
    rw [← Nat.cast_lt (α := ℚ), hhigh, hpoint, mul_lt_mul_iff_left₀ hscale] at habove
    exact ⟨hbelow.le, habove.le, fun _ => hbelow, fun _ => habove⟩
  · rw [if_pos (by simpa using hodd)] at h
    simp only [Bool.and_eq_true, decide_eq_true_eq] at h
    obtain ⟨hbelow, habove⟩ := h
    rw [← Nat.cast_le (α := ℚ), hlow, hpoint, mul_le_mul_iff_left₀ hscale] at hbelow
    rw [← Nat.cast_le (α := ℚ), hhigh, hpoint, mul_le_mul_iff_left₀ hscale] at habove
    exact ⟨hbelow, habove, fun h => absurd h hodd, fun h => absurd h hodd⟩

theorem near_zero (hm : x.significand = 0) : x.Near 0 := by
  have hpos : (0 : ℚ) < 2 ^ x.exponent := by positivity
  have hlow : x.lowerQuarters = -2 := by
    unfold lowerQuarters
    rw [hm, if_neg (by omega)]
    norm_num
  refine ⟨?_, ?_, fun h => ?_, fun h => ?_⟩
  · rw [hlow]
    linarith
  · rw [hm]
    norm_num
    exact hpos.le
  · omega
  · omega

theorem exponent_ge (x : Binary64) : -1074 ≤ x.exponent := by
  unfold exponent
  omega

/-- the grid of the twentieth digit is finer than a quarter of a unit in the last place -/
theorem isSome_pick?_last (tie : TieRule) (hm : x.significand ≠ 0) :
    (x.interval.pick? tie (x.decimalTop - (19 : Nat))).isSome = true := by
  have hlog := log2_significand_lt hm
  have hmost := x.exponent_le
  have hleast := x.exponent_ge
  have hten : (10 : ℚ) ^ (x.decimalTop - (19 : Nat)) ≤ 2 ^ (x.exponent - 2) := by
    unfold decimalTop
    exact ten_zpow_le (by omega) (by omega)
  generalize x.decimalTop - (19 : Nat) = k at hten ⊢
  have hscale : (0 : ℚ) < 2 ^ (-x.exponent).toNat * 10 ^ (-k).toNat := by positivity
  have hpos : (0 : ℚ) < 2 ^ x.exponent := by positivity
  have hquarter : (2 : ℚ) ^ (x.exponent - 2) = 2 ^ x.exponent / 4 := by
    rw [zpow_sub₀ (by norm_num)]
    norm_num
  have hhalf : (4 : ℚ) * (1 * 10 ^ k) < 2 * 2 ^ x.exponent := by
    rw [hquarter] at hten
    linarith
  have hstep : 1 * 10 ^ k.toNat * (4 * 2 ^ (-x.exponent).toNat) < 2 * 2 ^ x.exponent.toNat * 10 ^ (-k).toNat := by
    have hscaled := mul_lt_mul_of_pos_right hhalf hscale
    rw [← end_scaled, ← point_scaled] at hscaled
    exact_mod_cast hscaled
  refine Interval.isSome_pick? ?_ ?_ ?_
  · exact Nat.mul_le_mul_right _ (Nat.sub_le _ _)
  · simp [interval, denominator]
  · show 4 * x.significand * 2 ^ x.exponent.toNat * 10 ^ (-k).toNat
        + 4 * 2 ^ (-x.exponent).toNat * 10 ^ k.toNat
      < (4 * x.significand + 2) * 2 ^ x.exponent.toNat * 10 ^ (-k).toNat
    rw [Nat.one_mul, Nat.mul_comm (10 ^ k.toNat)] at hstep
    rw [Nat.add_mul, Nat.add_mul]
    omega

/-! ## the shortest decimal -/

def shortestValue (x : Binary64) (tie : TieRule) : ℚ := (x.shortest tie).1 * 10 ^ (x.shortest tie).2

theorem trimZeros_value (fuel n : Nat) (k : Int) :
    ((trimZeros fuel (n, k)).1 : ℚ) * 10 ^ (trimZeros fuel (n, k)).2 = n * 10 ^ k := by
  obtain ⟨j, hk, hn, -⟩ := trimZeros_spec fuel n k
  calc ((trimZeros fuel (n, k)).1 : ℚ) * 10 ^ (trimZeros fuel (n, k)).2
      = ((trimZeros fuel (n, k)).1 * 10 ^ j : ℕ) * 10 ^ k := by
        rw [hk, zpow_add₀ (by norm_num), zpow_natCast]
        push_cast
        ring
    _ = n * 10 ^ k := by rw [← hn]

theorem near_shortest (x : Binary64) (tie : TieRule) : x.Near (x.shortestValue tie) := by
  unfold shortestValue
  by_cases hm : x.significand = 0
  · have hzero : x.shortest tie = (0, 0) := if_pos (by simpa using hm)
    rw [hzero, Nat.cast_zero, zero_mul]
    exact near_zero hm
  · have hshortest : x.shortest tie = trimZeros 20 (x.interval.search tie 20 x.decimalTop) := if_neg (by simpa using hm)
    rw [hshortest, trimZeros_value]
    exact near_of_contains hm (Interval.search_contains (by decide : 19 < 20) (isSome_pick?_last tie hm))

/-! ## the order of the shortest decimals -/

theorem le_lowerQuarters (x : Binary64) : 4 * (x.significand : ℚ) - 2 ≤ x.lowerQuarters := by
  unfold lowerQuarters
  split <;> linarith

/-- a double that does not have the least exponent has all its bits -/
theorem significand_ge_of_exponent (h : -1074 < x.exponent) : 2 ^ 52 ≤ x.significand ∧ 1 < x.biasedExponent := by
  have hbiased : 1 < x.biasedExponent := by
    unfold exponent at h
    omega
  refine ⟨?_, hbiased⟩
  unfold significand
  rw [if_neg (by omega)]
  exact Nat.le_add_right _ _

theorem boundary_le_lowerQuarters (h : -1074 < x.exponent) : (2 : ℚ) ^ 54 - 1 ≤ x.lowerQuarters := by
  obtain ⟨hm, hbiased⟩ := significand_ge_of_exponent h
  unfold lowerQuarters
  by_cases hleast : x.significand = 2 ^ 52
  · rw [if_pos ⟨hleast, hbiased⟩, hleast]
    norm_num
  · rw [if_neg (fun h => hleast h.1)]
    have hm' : (2 : ℚ) ^ 52 + 1 ≤ x.significand := by
      exact_mod_cast Nat.succ_le_of_lt (lt_of_le_of_ne hm (Ne.symm hleast))
    linarith

/-- the intervals around two doubles of different exponents -/
theorem ends_of_exponent_lt (h : x.exponent < y.exponent) :
    (4 * x.significand + 2) * 2 ^ x.exponent < y.lowerQuarters * 2 ^ y.exponent ∨
      (4 * x.significand + 2) * 2 ^ x.exponent ≤ y.lowerQuarters * 2 ^ y.exponent ∧ x.significand % 2 = 1 := by
  have hunit : (0 : ℚ) < 2 ^ x.exponent := by positivity
  have hlow := boundary_le_lowerQuarters (x.exponent_ge.trans_lt h)
  have hdouble : 2 * (2 : ℚ) ^ x.exponent ≤ 2 ^ y.exponent := by
    rw [← zpow_one_add₀ (by norm_num)]
    exact zpow_le_zpow_right₀ (by norm_num) (by omega)
  have hnext : ((2 : ℚ) ^ 55 - 2) * 2 ^ x.exponent ≤ y.lowerQuarters * 2 ^ y.exponent := by
    calc ((2 : ℚ) ^ 55 - 2) * 2 ^ x.exponent = (2 ^ 54 - 1) * (2 * 2 ^ x.exponent) := by ring
      _ ≤ y.lowerQuarters * 2 ^ y.exponent :=
        mul_le_mul hlow hdouble (by positivity) (le_trans (by norm_num) hlow)
  have hlt := x.significand_lt
  by_cases hmost : x.significand = 2 ^ 53 - 1
  · refine .inr ⟨le_trans (le_of_eq ?_) hnext, by omega⟩
    rw [hmost]
    norm_num
  · have hless : (x.significand : ℚ) + 2 ≤ 2 ^ 53 := by
      have hless' : x.significand + 2 ≤ 2 ^ 53 := by omega
      exact_mod_cast hless'
    refine .inl (lt_of_lt_of_le (mul_lt_mul_of_pos_right ?_ hunit) hnext)
    linarith

/-- the intervals around two doubles of one exponent -/
theorem ends_of_significand_lt (he : x.exponent = y.exponent) (hm : x.significand < y.significand) :
    (4 * x.significand + 2) * 2 ^ x.exponent < y.lowerQuarters * 2 ^ y.exponent ∨
      (4 * x.significand + 2) * 2 ^ x.exponent ≤ y.lowerQuarters * 2 ^ y.exponent ∧
        (x.significand % 2 = 1 ∨ y.significand % 2 = 1) := by
  have hunit : (0 : ℚ) < 2 ^ x.exponent := by positivity
  have hlow := y.le_lowerQuarters
  rw [← he]
  by_cases hnext : y.significand = x.significand + 1
  · refine .inr ⟨mul_le_mul_of_nonneg_right ?_ hunit.le, by omega⟩
    rw [hnext] at hlow
    push_cast at hlow
    linarith
  · have hbeyond : (x.significand : ℚ) + 2 ≤ y.significand := by
      have hbeyond' : x.significand + 2 ≤ y.significand := by omega
      exact_mod_cast hbeyond'
    refine .inl (mul_lt_mul_of_pos_right ?_ hunit)
    linarith

/-- The interval around a double ends where that around a larger one begins, or before.  If it ends there, one of the
two significands is odd. -/
theorem ends_of_lt
    (h : x.exponent < y.exponent ∨ x.exponent = y.exponent ∧ x.significand < y.significand) :
    (4 * x.significand + 2) * 2 ^ x.exponent < y.lowerQuarters * 2 ^ y.exponent ∨
      (4 * x.significand + 2) * 2 ^ x.exponent ≤ y.lowerQuarters * 2 ^ y.exponent ∧
        (x.significand % 2 = 1 ∨ y.significand % 2 = 1) := by
  rcases h with he | ⟨he, hm⟩
  · exact (ends_of_exponent_lt he).imp_right fun h => ⟨h.1, .inl h.2⟩
  · exact ends_of_significand_lt he hm

/-- numbers near two doubles of different magnitude are different, in the same order -/
theorem Near.lt {v w : ℚ} (hx : x.Near v) (hy : y.Near w)
    (h : x.exponent < y.exponent ∨ x.exponent = y.exponent ∧ x.significand < y.significand) : v < w := by
  have hquarters : 4 * v < 4 * w := by
    rcases ends_of_lt h with hends | ⟨hends, hodd | hodd⟩
    · exact lt_of_le_of_lt hx.high (lt_of_lt_of_le hends hy.low)
    · exact lt_of_lt_of_le (hx.high_odd hodd) (hends.trans hy.low)
    · exact lt_of_le_of_lt (hx.high.trans hends) (hy.low_odd hodd)
  linarith

/-- one number is near doubles of one magnitude only -/
theorem Near.unique {v : ℚ} (hx : x.Near v) (hy : y.Near v) :
    x.exponent = y.exponent ∧ x.significand = y.significand := by
  rcases lt_trichotomy x.exponent y.exponent with he | he | he
  · exact absurd (hx.lt hy (.inl he)) (lt_irrefl v)
  · rcases lt_trichotomy x.significand y.significand with hm | hm | hm
    · exact absurd (hx.lt hy (.inr ⟨he, hm⟩)) (lt_irrefl v)
    · exact ⟨he, hm⟩
    · exact absurd (hy.lt hx (.inr ⟨he.symm, hm⟩)) (lt_irrefl v)
  · exact absurd (hy.lt hx (.inl he)) (lt_irrefl v)

theorem ext_fields (hsign : x.isNegative = y.isNegative) (he : x.exponent = y.exponent)
    (hm : x.significand = y.significand) : x = y := by
  have hx := x.bits.toNat_lt
  have hy := y.bits.toNat_lt
  have hfields : x.biasedExponent = y.biasedExponent ∧ x.fraction = y.fraction := by
    have hxf : x.fraction < 2 ^ 52 := Nat.mod_lt _ (by norm_num)
    have hyf : y.fraction < 2 ^ 52 := Nat.mod_lt _ (by norm_num)
    unfold exponent at he
    unfold significand at hm
    split at hm <;> split at hm <;> omega
  obtain ⟨hbiased, hfraction⟩ := hfields
  unfold isNegative at hsign
  rw [decide_eq_decide] at hsign
  unfold biasedExponent at hbiased
  unfold fraction at hfraction
  have hbits : x.bits = y.bits := UInt64.toNat_inj.mp (by omega)
  cases x
  cases y
  exact congrArg Binary64.mk hbits

theorem eq_of_shortestValue (hsign : x.isNegative = y.isNegative)
    (h : x.shortestValue tie = y.shortestValue tie) : x = y := by
  obtain ⟨he, hm⟩ := (x.near_shortest tie).unique (h ▸ y.near_shortest tie)
  exact ext_fields hsign he hm

end

end TableAlgebra.Binary64
