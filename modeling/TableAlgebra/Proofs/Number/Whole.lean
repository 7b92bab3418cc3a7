import Mathlib.Tactic.Linarith
import TableAlgebra.Literal
import TableAlgebra.Proofs.Number.Numeral

/-!
# Whole numbers are integers

A truth value is written as `0` or `1`.  So is an integer, but no double that is kept as a double: the
search for the shortest digits ends in a decimal that lies within half a unit in the last place, or in one
of twenty digits, and if that is zero or one the double is that integer.

* `Interval.search_cases`            how the search ends;
* `untrimmed_ne_zero`, `numerator_of_untrimmed`   the doubles whose digits are zero and one;
* `text_ne_of_toInt64?_eq_none`      a double that is no integer is written neither as `0` nor as `1`.
-/

namespace TableAlgebra.Binary64

/-! ## the search -/

namespace Interval

variable {i : Interval} {tie : TieRule}

theorem le_of_contains {num den : Nat} (h : i.contains num den = true) :
    i.low * den ≤ num * i.denominator ∧ num * i.denominator ≤ i.high * den := by
  unfold contains at h
  split at h
  · simpa using h
  · simp only [Bool.and_eq_true, decide_eq_true_eq] at h
    exact ⟨h.1.le, h.2.le⟩

theorem contains_of_pick? {k : Int} {n : Nat} (h : i.pick? tie k = some n) :
    i.contains (n * 10 ^ k.toNat) (10 ^ (-k).toNat) = true := by
  unfold pick? at h
  simp only at h
  split at h
  · rename_i hboth
    rw [Bool.and_eq_true] at hboth
    split at h
    · exact Option.some.inj h ▸ hboth.2
    · exact Option.some.inj h ▸ hboth.1
  · split at h
    · rename_i hlower
      exact Option.some.inj h ▸ hlower
    · split at h
      · rename_i hupper
        exact Option.some.inj h ▸ hupper
      · exact nomatch h

/-- the search ends with a decimal of the interval, or with the digits of the value on the last grid -/
theorem search_cases (i : Interval) (tie : TieRule) (fuel : Nat) (k : Int) :
    i.contains ((i.search tie fuel k).1 * 10 ^ (i.search tie fuel k).2.toNat)
        (10 ^ (-(i.search tie fuel k).2).toNat) = true ∨
      i.search tie fuel k = (i.value * 10 ^ (-(k - fuel)).toNat
        / (i.denominator * 10 ^ (k - fuel).toNat), k - fuel) := by
  induction fuel generalizing k with
  | zero => exact .inr (by simp [search])
  | succ fuel ih =>
    rw [search]
    cases hpick : i.pick? tie k with
    | some n => exact .inl (contains_of_pick? hpick)
    | none =>
      have hk : k - (fuel + 1 : Nat) = k - 1 - fuel := by omega
      rw [hk]
      exact ih (k - 1)

end Interval

/-- trimming zeros moves powers of ten from the digits to the exponent -/
theorem trimZeros_spec (fuel : Nat) (n : Nat) (k : Int) :
    ∃ j : Nat, (trimZeros fuel (n, k)).2 = k + j ∧ n = (trimZeros fuel (n, k)).1 * 10 ^ j ∧
      (n = 0 → j = 0) := by
  induction fuel generalizing n k with
  | zero => exact ⟨0, by simp [trimZeros]⟩
  | succ fuel ih =>
    rw [trimZeros]
    split
    · rename_i h
      simp only [Bool.and_eq_true, beq_iff_eq, bne_iff_ne, ne_eq] at h
      obtain ⟨j, hk, hn, -⟩ := ih (n / 10) (k + 1)
      refine ⟨j + 1, by rw [hk]; omega, ?_, fun hzero => absurd hzero h.2⟩
      rw [pow_succ, ← mul_assoc, ← hn]
      omega
    · exact ⟨0, by simp⟩

/-! ## the dyadic value -/

theorem significand_lt (x : Binary64) : x.significand < 2 ^ 53 := by
  have hfraction : x.fraction < 2 ^ 52 := Nat.mod_lt _ (by norm_num)
  unfold significand
  split <;> omega

theorem significand_ge {x : Binary64} (h : 0 ≤ x.exponent) : 2 ^ 52 ≤ x.significand := by
  unfold exponent at h
  unfold significand
  split <;> omega

theorem exponent_le {x : Binary64} : x.exponent ≤ 972 := by
  have hbiased : x.biasedExponent < 2 ^ 11 := Nat.mod_lt _ (by norm_num)
  unfold exponent
  omega

theorem toInt64?_of_zero {x : Binary64} (hfinite : x.isFinite = true) (h : x.significand = 0) :
    x.toInt64? ≠ none := by
  have hnum : x.numerator = 0 := by simp [numerator, h]
  simp [toInt64?, toInt?, hfinite, hnum, signed]

theorem toInt64?_of_one {x : Binary64} (hfinite : x.isFinite = true) (h : x.numerator = x.denominator) :
    x.toInt64? ≠ none := by
  have hpos : 0 < x.denominator := by simp [denominator]
  have hint : x.toInt? = some (x.signed 1) := by
    simp [toInt?, hfinite, h, Nat.div_self hpos]
  have habs : (x.signed 1).natAbs = 1 := by
    unfold signed
    split <;> rfl
  simp [toInt64?, hint, habs]

/-! ## zero and one among the shortest digits -/

section

variable {x : Binary64}

/-- the digits and the power of ten before zeros are trimmed -/
def untrimmed (x : Binary64) : Nat × Int := x.interval.search .up 20 x.decimalTop

/-- The digits found for a double that is not zero lie in its interval, or they are its first twenty. -/
theorem untrimmed_cases (x : Binary64) :
    x.interval.contains (x.untrimmed.1 * 10 ^ x.untrimmed.2.toNat) (10 ^ (-x.untrimmed.2).toNat) = true ∨
      x.untrimmed = (4 * x.numerator * 10 ^ (-(x.decimalTop - 20)).toNat
        / (4 * x.denominator * 10 ^ (x.decimalTop - 20).toNat), x.decimalTop - 20) := by
  have hvalue : x.interval.value = 4 * x.numerator := by
    simp [interval, numerator, mul_assoc]
  rcases x.interval.search_cases .up 20 x.decimalTop with h | h
  · exact .inl h
  · right
    unfold untrimmed
    rw [h, hvalue]
    rfl

/-- the interval ends at most half a unit from the value -/
theorem interval_ends {num den : Nat} (h : x.interval.contains num den = true) :
    (4 * x.significand - 2) * 2 ^ x.exponent.toNat * den ≤ num * (4 * x.denominator) ∧
      num * (4 * x.denominator) ≤ (4 * x.significand + 2) * 2 ^ x.exponent.toNat * den := by
  obtain ⟨hlow, hhigh⟩ := Interval.le_of_contains h
  refine ⟨le_trans ?_ hlow, hhigh⟩
  have hbelow : (if x.significand == 2 ^ 52 && decide (x.biasedExponent > 1) then 1 else 2) ≤ 2 := by
    split <;> omega
  exact Nat.mul_le_mul_right _ (Nat.mul_le_mul_right _ (Nat.sub_le_sub_left hbelow _))

theorem ten_pow_le {b n : Nat} (h : 10 * (b + 2) ≤ 3 * n) : 10 ^ b ≤ 2 ^ n := by
  calc 10 ^ b ≤ 10 ^ (3 * ((b + 2) / 3)) := Nat.pow_le_pow_right (by norm_num) (by omega)
    _ = 1000 ^ ((b + 2) / 3) := by rw [pow_mul]; norm_num
    _ ≤ 1024 ^ ((b + 2) / 3) := Nat.pow_le_pow_left (by norm_num) _
    _ = 2 ^ (10 * ((b + 2) / 3)) := by rw [pow_mul]; norm_num
    _ ≤ 2 ^ n := Nat.pow_le_pow_right (by norm_num) (by omega)

theorem log2_significand_lt (hm : x.significand ≠ 0) : x.significand.log2 < 53 :=
  (Nat.log2_lt hm).mpr x.significand_lt

/-- a double whose first twenty digits are no fraction is at least a power of ten beyond them -/
theorem ten_pow_le_numerator (hm : x.significand ≠ 0) (h : 0 ≤ x.decimalTop - 20) :
    x.denominator * 10 ^ (x.decimalTop - 20).toNat ≤ x.numerator := by
  have hlog := log2_significand_lt hm
  have hexp := x.exponent_le
  unfold decimalTop at h ⊢
  have hden : x.denominator = 1 := by
    have : (-x.exponent).toNat = 0 := by omega
    simp [denominator, this]
  have hten : 10 ^ (((x.significand.log2 : Int) + x.exponent + 1) * 30103 / 100000 + 1 - 20).toNat
      ≤ 2 ^ (x.significand.log2 + x.exponent.toNat) := ten_pow_le (by omega)
  rw [hden, one_mul]
  refine hten.trans ?_
  rw [pow_add, numerator]
  exact Nat.mul_le_mul_right _ (Nat.log2_self_le hm)

theorem untrimmed_ne_zero (hm : x.significand ≠ 0) (hk : 0 ≤ x.untrimmed.2) : x.untrimmed.1 ≠ 0 := by
  intro hzero
  rcases x.untrimmed_cases with h | h
  · obtain ⟨hlow, -⟩ := interval_ends h
    rw [hzero, zero_mul, zero_mul, Nat.le_zero] at hlow
    have hlow' : 4 * x.significand - 2 = 0 := by simpa using hlow
    omega
  · rw [h] at hzero hk
    have hle := ten_pow_le_numerator hm hk
    have hneg : (-(x.decimalTop - 20)).toNat = 0 := by
      show (-(x.decimalTop - 20)).toNat = 0
      omega
    have hpos : 0 < 4 * x.denominator * 10 ^ (x.decimalTop - 20).toNat := by
      simp [denominator]
    have hlt := (Nat.div_eq_zero_iff_lt hpos).mp hzero
    rw [hneg, pow_zero, mul_one] at hlt
    nlinarith

theorem numerator_of_near (hlow : (4 * x.significand - 2) * 2 ^ x.exponent.toNat ≤ 4 * x.denominator)
    (hhigh : 4 * x.denominator ≤ (4 * x.significand + 2) * 2 ^ x.exponent.toNat) :
    x.numerator = x.denominator := by
  rcases le_or_gt 0 x.exponent with he | he
  · have hm := significand_ge he
    have hden : x.denominator = 1 := by
      have : (-x.exponent).toNat = 0 := by omega
      simp [denominator, this]
    have hle : 4 * x.significand - 2 ≤ (4 * x.significand - 2) * 2 ^ x.exponent.toNat :=
      Nat.le_mul_of_pos_right _ (Nat.two_pow_pos _)
    omega
  · have hunit : x.exponent.toNat = 0 := by omega
    rw [hunit, pow_zero, mul_one] at hlow hhigh
    rw [numerator, hunit, pow_zero, mul_one]
    omega

/-- a double whose first twenty digits are those of one is one -/
theorem numerator_of_first {j : Nat} (hk : x.decimalTop - 20 = -j)
    (hlow : x.denominator ≤ x.numerator)
    (hhigh : x.numerator * 10 ^ j < x.denominator * (10 ^ j + 1)) : x.numerator = x.denominator := by
  by_contra hne
  have hten : 0 < 10 ^ j := by positivity
  have hfirst : 10 ^ j < x.denominator := by
    have hlt : x.denominator + 1 ≤ x.numerator := by omega
    nlinarith [Nat.mul_le_mul_right (10 ^ j) hlt]
  have he : x.exponent < 0 := by
    by_contra he
    have : (-x.exponent).toNat = 0 := by omega
    rw [denominator, this] at hfirst
    omega
  have hunit : x.exponent.toNat = 0 := by omega
  have hnum : x.numerator = x.significand := by rw [numerator, hunit, pow_zero, mul_one]
  have hden : x.denominator = 2 ^ (-x.exponent).toNat := rfl
  rw [hnum] at hlow hhigh
  have hlt : x.significand < 2 * x.denominator := by nlinarith
  have hlog : x.significand.log2 = (-x.exponent).toNat := by
    refine (Nat.log2_eq_iff ?_).mpr ⟨hden ▸ hlow, ?_⟩
    · omega
    · rw [pow_succ]
      omega
  have hj : j = 19 := by
    unfold decimalTop at hk
    omega
  have hsmall : x.denominator < 2 ^ 53 := hlow.trans_lt x.significand_lt
  rw [hj] at hfirst
  omega

/-- digits that stand for one are those of a double that is one -/
theorem numerator_of_untrimmed {j : Nat} (hn : x.untrimmed.1 = 10 ^ j) (hk : x.untrimmed.2 = -j) :
    x.numerator = x.denominator := by
  have hten : 0 < 10 ^ j := by positivity
  rcases x.untrimmed_cases with h | h
  · have hup : x.untrimmed.2.toNat = 0 := by omega
    have hdown : (-x.untrimmed.2).toNat = j := by omega
    obtain ⟨hlow, hhigh⟩ := interval_ends h
    rw [hn, hup, hdown, pow_zero, mul_one, mul_comm (10 ^ j)] at hlow hhigh
    exact numerator_of_near (Nat.le_of_mul_le_mul_right hlow hten)
      (Nat.le_of_mul_le_mul_right hhigh hten)
  · rw [h] at hn hk
    have hup : (x.decimalTop - 20).toNat = 0 := by omega
    have hdown : (-(x.decimalTop - 20)).toNat = j := by omega
    rw [hup, hdown, pow_zero, mul_one] at hn
    have hquotient : 4 * x.numerator * 10 ^ j / (4 * x.denominator) = 10 ^ j := hn
    have hpos : 0 < 4 * x.denominator := by simp [denominator]
    have hle := Nat.mul_div_le (4 * x.numerator * 10 ^ j) (4 * x.denominator)
    have hlt := Nat.lt_mul_div_succ (4 * x.numerator * 10 ^ j) hpos
    rw [hquotient] at hle hlt
    refine numerator_of_first hk ?_ ?_
    · have := Nat.le_of_mul_le_mul_right hle hten
      omega
    · nlinarith

/-! ## the text -/

theorem toString_inj {m n : Nat} (h : toString m = toString n) : m = n := by
  rw [Nat.toString_eq_ofList_toDigits, Nat.toString_eq_ofList_toDigits, String.ofList_inj] at h
  rw [← Nat.ofDigitChars_ten_toDigits (n := m), h, Nat.ofDigitChars_ten_toDigits]

/-- digits and a power of ten are written as one character only if the digits are that character, and the
power adds no zeros -/
theorem positional_eq {n : Nat} {k : Int} {c : Char} (h : positional n k = String.ofList [c]) :
    0 ≤ k ∧ (n = 0 ∨ k = 0) ∧ toString n = String.ofList [c] := by
  have hne := toList_toString_ne_nil n
  rw [← String.toList_inj, String.toList_ofList] at h
  unfold positional at h
  by_cases hk : 0 ≤ k
  · rw [if_pos hk, String.toList_append] at h
    obtain ⟨d, ds, hds⟩ := List.exists_cons_of_ne_nil hne
    rw [hds, List.cons_append, List.cons.injEq, List.append_eq_nil_iff] at h
    obtain ⟨rfl, rfl, hzeros⟩ := h
    refine ⟨hk, ?_, by rw [← hds, String.ofList_toList]⟩
    by_cases hn : n = 0
    · exact .inl hn
    · rw [if_neg (by simpa using hn), toList_zeros, List.replicate_eq_nil_iff] at hzeros
      exact .inr (by omega)
  · rw [if_neg hk] at h
    have hlength := congrArg List.length h
    dsimp only at hlength
    split at hlength
    · simp at hlength
    · simp only [String.toList_append, String.toList_ofList, List.length_append, List.length_take,
        List.length_drop, List.length_cons, List.length_nil] at hlength
      have hpoint : ".".toList.length = 1 := rfl
      have hplaces : 0 < (-k).toNat := by omega
      have hpos := List.length_pos_iff.mpr hne
      omega

/-- a double that is no integer of 64 bits is written neither as `0` nor as `1` -/
theorem text_ne_of_toInt64?_eq_none (hfinite : x.isFinite = true) (hint : x.toInt64? = none) :
    x.text ≠ "0" ∧ x.text ≠ "1" := by
  have hm : x.significand ≠ 0 := fun h => toInt64?_of_zero hfinite h hint
  have hnan : x.isNaN = false := by
    unfold isFinite at hfinite
    simp_all [isNaN]
  have htext : x.text = x.signText ++ positional (x.shortest .up).1 (x.shortest .up).2 := by
    simp [text, hnan, hfinite]
  have hshortest : x.shortest .up = trimZeros 20 x.untrimmed := by
    simp [shortest, hm, untrimmed]
  obtain ⟨j, hk, hn, hj⟩ := trimZeros_spec 20 x.untrimmed.1 x.untrimmed.2
  rw [← hshortest] at hk hn
  have hdigit : ∀ c, isDigit c = true → x.text = String.ofList [c] →
      positional (x.shortest .up).1 (x.shortest .up).2 = String.ofList [c] := by
    intro c hc h
    rw [htext] at h
    unfold signText at h
    split at h
    · rw [← String.toList_inj, String.toList_append] at h
      rw [String.toList_ofList (l := [c])] at h
      have hminus : '-' = c := (List.cons.inj h).1
      exact absurd (hminus ▸ hc) (by decide)
    · rwa [String.empty_append] at h
  constructor
  · intro h
    obtain ⟨hpos, -, hdigits⟩ := positional_eq (hdigit '0' rfl h)
    have hzero : (x.shortest .up).1 = 0 := toString_inj hdigits
    rw [hzero, zero_mul] at hn
    rw [hj hn] at hk
    exact untrimmed_ne_zero hm (by omega) hn
  · intro h
    obtain ⟨-, hpower, hdigits⟩ := positional_eq (hdigit '1' rfl h)
    have hone : (x.shortest .up).1 = 1 := toString_inj hdigits
    rw [hone, one_mul] at hn
    have hexp : x.untrimmed.2 = -j := by omega
    exact toInt64?_of_one hfinite (numerator_of_untrimmed hn hexp) hint

end

end TableAlgebra.Binary64
