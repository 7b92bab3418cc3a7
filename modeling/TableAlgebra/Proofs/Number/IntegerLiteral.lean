import Mathlib.Data.Nat.Cast.Field
import TableAlgebra.Literal
import TableAlgebra.Proofs.Json.Numeral
import TableAlgebra.Proofs.Number.Rounding

/-!
# Doubles that are integers

A finite double has an exact value, its magnitude with its sign.  It becomes the literal of an integer if that value
is whole and its magnitude is below the double that the largest integer of 64 bits is rounded to, which is 2^63.
There the cast is exact.  Since the test takes magnitudes, it leaves out one integer of the range: -2^63, which is a
double as well, stays a number.

* `Binary64.value`                   the value of a finite double;
* `Binary64.toInt64`                 its whole part, moved into the range of 64 bits;
* `Binary64.toInt?_eq_some`, `toInt64?_eq_some`, `toInt64?_eq_none`   the doubles that stand for an integer, and for
                                     one that passes the test;
* `Binary64.toInt64?_eq_cast`        the same by the test on doubles and the cast;
* `Value.toLiteral_of_integer`       doubles and integers with the same literal;
* `Value.not_toLiteral_of_integer`   two literals for the least integer.
-/

namespace TableAlgebra

namespace Binary64

variable {x : Binary64}

/-- the value of a finite double, of either zero `0` -/
def value (x : Binary64) : ℚ := if x.isNegative then -x.magnitude else x.magnitude

/-- the cast to an integer of 64 bits: the value of a finite double without its places, or the end of the range on
its side -/
def toInt64 (x : Binary64) : Int64 :=
  Int64.ofInt (max Int64.minValue.toInt (min Int64.maxValue.toInt (x.signed (x.numerator / x.denominator))))

/-! ## whole values -/

theorem abs_value (x : Binary64) : |x.value| = x.magnitude := by
  have hpos : 0 ≤ x.magnitude := by
    unfold magnitude
    positivity
  unfold value
  split
  · rw [abs_neg, abs_of_nonneg hpos]
  · exact abs_of_nonneg hpos

/-- a whole magnitude with the sign of the double is the value -/
theorem signed_eq_iff {m : Nat} {n : Int} (hm : x.magnitude = m) : x.signed m = n ↔ x.value = n := by
  have hvalue : x.value = (x.signed m : Int) := by
    unfold value signed
    rw [hm]
    split <;> push_cast <;> rfl
  rw [hvalue, Int.cast_inj]

theorem signed_div_of_value {n : Int} (h : x.value = n) :
    x.numerator % x.denominator = 0 ∧ x.signed (x.numerator / x.denominator) = n := by
  have hden : (x.denominator : ℚ) ≠ 0 := Nat.cast_ne_zero.mpr x.denominator_ne_zero
  have hm : x.magnitude = (n.natAbs : Nat) := by rw [← abs_value, h, Nat.cast_natAbs, Int.cast_abs]
  have hnum : x.numerator = n.natAbs * x.denominator := by
    have hmul := hm
    rw [← x.numerator_div_denominator, div_eq_iff hden] at hmul
    exact_mod_cast hmul
  rw [hnum, Nat.mul_mod_left, Nat.mul_div_cancel _ (Nat.pos_of_ne_zero x.denominator_ne_zero)]
  exact ⟨rfl, (signed_eq_iff hm).mpr h⟩

theorem toInt?_eq_some {n : Int} : x.toInt? = some n ↔ x.isFinite = true ∧ x.value = n := by
  have hden : (x.denominator : ℚ) ≠ 0 := Nat.cast_ne_zero.mpr x.denominator_ne_zero
  unfold toInt?
  constructor
  · intro h
    obtain ⟨hwhole, hn⟩ := Option.ite_none_right_eq_some.mp h
    rw [Bool.and_eq_true, beq_iff_eq] at hwhole
    have hm : x.magnitude = (x.numerator / x.denominator : Nat) := by
      rw [← x.numerator_div_denominator, Nat.cast_div (Nat.dvd_of_mod_eq_zero hwhole.2) hden]
    exact ⟨hwhole.1, (signed_eq_iff hm).mp (Option.some.inj hn)⟩
  · rintro ⟨hfinite, hvalue⟩
    obtain ⟨hwhole, hn⟩ := signed_div_of_value hvalue
    rw [hfinite, hwhole, hn]
    rfl

/-! ## integers of 64 bits -/

/-- the integers that pass the test are those of 64 bits, the least one apart -/
theorem natAbs_lt_iff {n : Int} :
    n.natAbs < 2 ^ 63 ↔ ∃ i : Int64, i.toInt = n ∧ i ≠ Int64.minValue := by
  constructor
  · intro h
    have hi : (Int64.ofInt n).toInt = n := Int64.toInt_ofInt_of_le (by omega) (by omega)
    refine ⟨Int64.ofInt n, hi, fun hmin => ?_⟩
    rw [hmin, Int64.toInt_minValue] at hi
    omega
  · rintro ⟨i, rfl, hmin⟩
    have hlow := i.le_toInt
    have hhigh := i.toInt_lt
    have hne : i.toInt ≠ -2 ^ 63 := fun h => hmin (Int64.toInt_inj.mp (h.trans Int64.toInt_minValue.symm))
    omega

theorem toInt64?_eq_some {i : Int64} :
    x.toInt64? = some i ↔ x.isFinite = true ∧ x.value = i.toInt ∧ i ≠ Int64.minValue := by
  unfold toInt64?
  constructor
  · intro h
    cases hn : x.toInt? with
    | none => simp [hn] at h
    | some n =>
      obtain ⟨hfinite, hvalue⟩ := toInt?_eq_some.mp hn
      rw [hn] at h
      obtain ⟨hlt, hi⟩ := Option.ite_none_right_eq_some.mp h
      obtain ⟨j, rfl, hmin⟩ := natAbs_lt_iff.mp hlt
      rw [Int64.ofInt_toInt, Option.some.injEq] at hi
      exact ⟨hfinite, hi ▸ hvalue, hi ▸ hmin⟩
  · rintro ⟨hfinite, hvalue, hmin⟩
    rw [toInt?_eq_some.mpr ⟨hfinite, hvalue⟩]
    dsimp only
    rw [if_pos (natAbs_lt_iff.mpr ⟨i, rfl, hmin⟩), Int64.ofInt_toInt]

/-- no integer is found if the value is none of 64 bits, or the least one -/
theorem toInt64?_eq_none (hfinite : x.isFinite = true) :
    x.toInt64? = none ↔ ∀ i : Int64, x.value = i.toInt → i = Int64.minValue := by
  rw [Option.eq_none_iff_forall_ne_some]
  refine forall_congr' fun i => ?_
  rw [Ne, toInt64?_eq_some]
  tauto

/-- an integer of 64 bits is cast to itself -/
theorem toInt64_of_value {i : Int64} (h : x.value = i.toInt) : x.toInt64 = i := by
  unfold toInt64
  rw [(signed_div_of_value h).2, min_eq_right i.toInt_le, max_eq_right i.minValue_le_toInt, Int64.ofInt_toInt]

/-- the largest integer is no double, and it is rounded up -/
theorem value_ofInt_maxValue : (ofInt Int64.maxValue.toInt).value = 2 ^ 63 := by
  have hint : (ofInt Int64.maxValue.toInt).toInt? = some (2 ^ 63) := by decide +kernel
  rw [(toInt?_eq_some.mp hint).2]
  norm_num

/-- The integer of a double is found by a test on doubles: the value has no places, and its magnitude is below the
double for the largest integer.  Where the test is passed, the integer is the cast of the double. -/
theorem toInt64?_eq_cast (hfinite : x.isFinite = true) :
    x.toInt64? = if x.value.isInt ∧ |x.value| < (ofInt Int64.maxValue.toInt).value then some x.toInt64 else none := by
  rw [value_ofInt_maxValue]
  split
  · rename_i h
    obtain ⟨n, hn⟩ : ∃ n : Int, x.value = n := ⟨x.value.num, Rat.eq_num_of_isInt h.1⟩
    have hlt : n.natAbs < 2 ^ 63 := by
      have habs := h.2
      rw [hn, ← Int.cast_abs, ← Nat.cast_natAbs] at habs
      exact_mod_cast habs
    obtain ⟨i, rfl, hmin⟩ := natAbs_lt_iff.mp hlt
    rw [toInt64_of_value hn]
    exact toInt64?_eq_some.mpr ⟨hfinite, hn, hmin⟩
  · rename_i h
    rw [toInt64?_eq_none hfinite]
    intro i hvalue
    by_contra hmin
    have hlt : i.toInt.natAbs < 2 ^ 63 := natAbs_lt_iff.mpr ⟨i, rfl, hmin⟩
    refine h ⟨?_, ?_⟩
    · rw [hvalue]
      rfl
    · rw [hvalue, ← Int.cast_abs, ← Nat.cast_natAbs]
      exact_mod_cast hlt

end Binary64

/-! ## literals -/

namespace Value

variable {x : Binary64}

theorem toLiteral_float (hfinite : x.isFinite = true) :
    (float x).toLiteral = .ok (match x.toInt64? with | some i => .integer i | none => .number x) := by
  simp only [toLiteral, hfinite]
  cases x.toInt64? <;> rfl

theorem toLiteral_float_eq_int (hfinite : x.isFinite = true) {i : Int64} :
    (float x).toLiteral = (int i).toLiteral ↔ x.toInt64? = some i := by
  rw [toLiteral_float hfinite]
  show _ = Except.ok (Literal.integer i) ↔ _
  cases x.toInt64? <;> simp

/-- a double whose literal is of integer type has the literal of an integer -/
theorem toInt64?_of_type (hfinite : x.isFinite = true) {l : Literal} (h : (float x).toLiteral = .ok l)
    (htype : l.type = .integer) : ∃ i, x.toInt64? = some i ∧ l = .integer i := by
  rw [toLiteral_float hfinite, Except.ok.injEq] at h
  cases hi : x.toInt64? with
  | some i => exact ⟨i, rfl, by rw [← h, hi]⟩
  | none =>
    rw [hi] at h
    subst h
    cases htype

/-- **Doubles that are integers have the same literals, the least integer apart.**  A finite double whose value is an
integer of 64 bits has the literal of that integer, of integer type and with its decimal text, unless it is -2^63,
which stays a number.  Where the literal of a finite double is of integer type, it is the cast of the double, the cast
neither rounds nor moves it into the range, and the text is read as its exact value. -/
theorem toLiteral_of_integer (hfinite : x.isFinite = true) :
    (∀ i : Int64, x.value = i.toInt →
      ((float x).toLiteral = (int i).toLiteral ↔ i ≠ Int64.minValue) ∧
      (i ≠ Int64.minValue → ∃ l, (float x).toLiteral = .ok l ∧ l.type = .integer ∧ l.text = toString i.toInt) ∧
      (i = Int64.minValue → (float x).toLiteral = .ok (.number x))) ∧
    ∀ l, (float x).toLiteral = .ok l → l.type = .integer →
      l = .integer x.toInt64 ∧ x.value = x.toInt64.toInt ∧
      ∃ n, readNumeral? l.text.toList = some (n, []) ∧ n.toInt? = some x.toInt64.toInt := by
  refine ⟨fun i hvalue => ⟨?_, fun hmin => ?_, fun hmin => ?_⟩, fun l hl htype => ?_⟩
  · rw [toLiteral_float_eq_int hfinite, Binary64.toInt64?_eq_some]
    exact ⟨fun h => h.2.2, fun hmin => ⟨hfinite, hvalue, hmin⟩⟩
  · have hi : x.toInt64? = some i := Binary64.toInt64?_eq_some.mpr ⟨hfinite, hvalue, hmin⟩
    exact ⟨.integer i, (toLiteral_float_eq_int hfinite).mpr hi, rfl, rfl⟩
  · have hnone : x.toInt64? = none := by
      rw [Binary64.toInt64?_eq_none hfinite]
      intro j hj
      have hsame : j.toInt = i.toInt := by exact_mod_cast hj.symm.trans hvalue
      exact (Int64.toInt_inj.mp hsame).trans hmin
    rw [toLiteral_float hfinite, hnone]
  · obtain ⟨i, hi, rfl⟩ := toInt64?_of_type hfinite hl htype
    obtain ⟨-, hvalue, -⟩ := Binary64.toInt64?_eq_some.mp hi
    have hcast : x.toInt64 = i := Binary64.toInt64_of_value hvalue
    rw [hcast]
    exact ⟨rfl, hvalue, intNumeral i.toInt, readNumeral?_toString i.toInt, toInt?_intNumeral_toInt i⟩

section

/-- the double -(2^63 - 2^10), the least one above -2^63 -/
def aboveLeast : Binary64 := ⟨0xC3DFFFFFFFFFFFFF⟩

def least : Binary64 := ⟨0xC3E0000000000000⟩

theorem value_least : least.value = Int64.minValue.toInt :=
  (Binary64.toInt?_eq_some.mp (by decide +kernel)).2

/-- the hypothesis of `toLiteral_of_integer` can be met: by the double above the least integer, which has a literal of
integer type -/
theorem toLiteral_of_integer_aboveLeast :
    aboveLeast.isFinite = true ∧ aboveLeast.value = (Int64.ofInt (-9223372036854774784)).toInt ∧
      ∃ l, (float aboveLeast).toLiteral = .ok l ∧ l.type = .integer ∧ l.text = "-9223372036854774784" := by
  have hfinite : aboveLeast.isFinite = true := by decide +kernel
  have hvalue : aboveLeast.value = (Int64.ofInt (-9223372036854774784)).toInt :=
    (Binary64.toInt?_eq_some.mp (by decide +kernel)).2
  obtain ⟨l, hl, htype, htext⟩ := ((toLiteral_of_integer hfinite).1 _ hvalue).2.1 (by decide)
  exact ⟨hfinite, hvalue, l, hl, htype, htext.trans (by decide +kernel)⟩

/-- **The least integer has two literals.**  Given as a double it is of number type, and given as an integer of
integer type. -/
theorem not_toLiteral_of_integer : ¬ ∀ (i : Int64) (x : Binary64), x.isFinite = true → x.value = i.toInt →
    (float x).toLiteral = (int i).toLiteral := by
  intro h
  have hsame := h Int64.minValue least (by decide) value_least
  exact absurd hsame (by decide +kernel)

end

end Value

end TableAlgebra
