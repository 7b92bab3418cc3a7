import Mathlib.Algebra.Order.Field.Power
import Mathlib.Data.List.Induction
import Mathlib.Data.Rat.Cast.Defs
import Mathlib.Tactic.Ring
import TableAlgebra.Json.Written
import TableAlgebra.Proofs.Number.Numeral

/-!
# Numerals in JSON

A numeral is read up to the first character that cannot go on with it, and gives the parts it was written with.  The
numerals of integers have neither point nor exponent, those of doubles have one or the other, and both stand for the
number they were made from.

* `Numeral.Sound`               numerals that can be written;
* `readNumeral?_chars`          a numeral is read as it was written;
* `readNumeral?_toString`, `toInt?_intNumeral`   an integer is read as it was written, and one of 64 bits as itself;
* `toList_jsonText`             the text of a double is its numeral;
* `toInt?_decimalNumeral`       the numeral of a double is no integer;
* `magnitude_decimalNumeral`    it stands for its digits times their power of ten.
-/

namespace TableAlgebra

/-! ## reading a numeral -/

/-- the text cannot go on with digits, nor with the parts that may follow them -/
def EndsNumeral (rest : List Char) : Prop :=
  ∀ c ∈ rest.head?, isDigit c = false ∧ c ≠ '.' ∧ c ≠ 'e' ∧ c ≠ 'E'

theorem endsNumeral_nil : EndsNumeral [] := nofun

theorem endsNumeral_cons {c : Char} (h : isDigit c = false ∧ c ≠ '.' ∧ c ≠ 'e' ∧ c ≠ 'E') (rest : List Char) :
    EndsNumeral (c :: rest) := by
  intro d hd
  rwa [← Option.mem_some.mp hd]

theorem takeWhile_digits {ds rest : List Char} (hds : ∀ c ∈ ds, isDigit c = true)
    (hrest : ∀ c ∈ rest.head?, isDigit c = false) :
    (ds ++ rest).takeWhile isDigit = ds ∧ (ds ++ rest).dropWhile isDigit = rest := by
  rw [List.takeWhile_append_of_pos hds, List.dropWhile_append_of_pos hds]
  cases rest with
  | nil => simp
  | cons c rest =>
    have hc : isDigit c = false := hrest c rfl
    simp [hc]

namespace Numeral

/-- the places behind the point, with the point if there are any -/
def placeChars (places : List Char) : List Char := if places.isEmpty then [] else '.' :: places

/-- the exponent, if there is one, with its sign -/
def exponentChars : Option (Bool × List Char) → List Char
  | none => []
  | some (negative, ds) => 'e' :: (if negative then '-' else '+') :: ds

/-- the text of a numeral behind its sign -/
def body (n : Numeral) : List Char := n.whole ++ (placeChars n.places ++ exponentChars n.exponent)

def chars (n : Numeral) : List Char := (if n.negative then ['-'] else []) ++ n.body

/-- A numeral that can be written: it has digits, of which the first is a zero only if it stands alone, and an
exponent has digits as well. -/
structure Sound (n : Numeral) : Prop where
  whole_ne_nil : n.whole ≠ []
  whole : ∀ c ∈ n.whole, isDigit c = true
  leading : 1 < n.whole.length → n.whole.head? ≠ some '0'
  places : ∀ c ∈ n.places, isDigit c = true
  exponent : ∀ negative ds, n.exponent = some (negative, ds) → ds ≠ [] ∧ ∀ c ∈ ds, isDigit c = true

end Numeral

theorem readExponentPart?_exponentChars {exponent : Option (Bool × List Char)}
    (h : ∀ negative ds, exponent = some (negative, ds) → ds ≠ [] ∧ ∀ c ∈ ds, isDigit c = true)
    {rest : List Char} (hrest : EndsNumeral rest) :
    readExponentPart? (Numeral.exponentChars exponent ++ rest) = some (exponent, rest) := by
  cases exponent with
  | none =>
    cases rest with
    | nil => rfl
    | cons c rest =>
      obtain ⟨-, -, hlower, hupper⟩ := hrest c rfl
      show readExponentPart? (c :: rest) = _
      rw [readExponentPart?, if_neg (by simp [hlower, hupper])]
  | some part =>
    obtain ⟨negative, ds⟩ := part
    obtain ⟨hne, hdigits⟩ := h negative ds rfl
    obtain ⟨htake, hdrop⟩ := takeWhile_digits hdigits fun c hc => (hrest c hc).1
    have hempty : ds.isEmpty = false := by simpa using hne
    cases negative <;> simp [readExponentPart?, Numeral.exponentChars, splitSign, htake, hdrop, hempty]

theorem readPlaces?_placeChars {places : List Char} (h : ∀ c ∈ places, isDigit c = true) {rest : List Char}
    (hrest : ∀ c ∈ rest.head?, isDigit c = false ∧ c ≠ '.') :
    readPlaces? (Numeral.placeChars places ++ rest) = some (places, rest) := by
  obtain ⟨htake, hdrop⟩ := takeWhile_digits h fun c hc => (hrest c hc).1
  cases places with
  | nil =>
    show readPlaces? rest = some ([], rest)
    rw [readPlaces?]
    rintro cs rfl
    exact (hrest '.' rfl).2 rfl
  | cons c places =>
    show readPlaces? ('.' :: (c :: places ++ rest)) = _
    rw [readPlaces?, htake, hdrop]
    rfl

theorem head_exponentChars (exponent : Option (Bool × List Char)) {rest : List Char} (hrest : EndsNumeral rest) :
    ∀ c ∈ (Numeral.exponentChars exponent ++ rest).head?, isDigit c = false ∧ c ≠ '.' := by
  cases exponent with
  | none => exact fun c hc => ⟨(hrest c hc).1, (hrest c hc).2.1⟩
  | some part =>
    intro c hc
    rw [← Option.mem_some.mp hc]
    decide

theorem head_placeChars (places : List Char) {rest : List Char}
    (hrest : ∀ c ∈ rest.head?, isDigit c = false ∧ c ≠ '.') :
    ∀ c ∈ (Numeral.placeChars places ++ rest).head?, isDigit c = false := by
  cases places with
  | nil => exact fun c hc => (hrest c hc).1
  | cons d places =>
    intro c hc
    rw [← Option.mem_some.mp hc]
    decide

/-- a numeral is read as it was written, up to a text that cannot go on with it -/
theorem readNumeral?_chars {n : Numeral} (h : n.Sound) {rest : List Char} (hrest : EndsNumeral rest) :
    readNumeral? (n.chars ++ rest) = some (n, rest) := by
  obtain ⟨negative, whole, places, exponent⟩ := n
  have hexponent := head_exponentChars exponent hrest
  obtain ⟨htake, hdrop⟩ := takeWhile_digits h.whole (head_placeChars places hexponent)
  have hplaces := readPlaces?_placeChars h.places hexponent
  have hread := readExponentPart?_exponentChars h.exponent hrest
  have hleading : ¬ (whole.isEmpty || (decide (whole.length > 1) && whole.head? == some '0')) = true := by
    simpa using And.intro h.whole_ne_nil h.leading
  dsimp only at htake hdrop hplaces hread
  obtain ⟨digits, hdigits⟩ : ∃ digits, digits = whole ++ (Numeral.placeChars places
    ++ (Numeral.exponentChars exponent ++ rest)) := ⟨_, rfl⟩
  rw [← hdigits] at htake hdrop
  have hchars : (⟨negative, whole, places, exponent⟩ : Numeral).chars ++ rest
      = (if negative then ['-'] else []) ++ digits := by
    simp only [hdigits, Numeral.chars, Numeral.body, List.append_assoc]
  rw [hchars]
  cases negative with
  | true =>
    show readNumeral? ('-' :: digits) = _
    rw [readNumeral?]
    simp only [htake, hdrop, if_neg hleading, hplaces, Option.bind_eq_bind, Option.bind_some, hread]
    rfl
  | false =>
    show readNumeral? digits = _
    rw [readNumeral?]
    · simp only [htake, hdrop, if_neg hleading, hplaces, Option.bind_eq_bind, Option.bind_some, hread]
      rfl
    · -- a digit is no minus
      intro cs heq
      rw [hdigits] at heq
      obtain ⟨c, ds, rfl⟩ := List.exists_cons_of_ne_nil h.whole_ne_nil
      have hc : isDigit c = true := h.whole c List.mem_cons_self
      rw [(List.cons.inj heq).1] at hc
      exact absurd hc (by decide)

/-! ## digits -/

theorem natOfDigits_toString (n : Nat) : natOfDigits (toString n).toList = n := by
  rw [Nat.toString_eq_ofList_toDigits, String.toList_ofList]
  exact Nat.ofDigitChars_ten_toDigits

theorem natOfDigits_append (cs ds : List Char) :
    natOfDigits (cs ++ ds) = natOfDigits cs * 10 ^ ds.length + natOfDigits ds := by
  induction ds using List.reverseRecOn with
  | nil => simp [natOfDigits_nil]
  | append_singleton ds d ih =>
    rw [← List.append_assoc, natOfDigits_append_singleton, natOfDigits_append_singleton, ih, List.length_append,
      List.length_singleton, pow_succ]
    ring

theorem natOfDigits_replicate (j : Nat) : natOfDigits (List.replicate j '0') = 0 := by
  induction j with
  | zero => rfl
  | succ j ih =>
    rw [List.replicate_succ', natOfDigits_append_singleton, ih]
    rfl

theorem head?_toString {n : Nat} (h : n ≠ 0) : (toString n).toList.head? ≠ some '0' := by
  have hdigit : ∀ n < 10, n ≠ 0 → [Nat.digitChar n].head? ≠ some '0' := by decide
  rw [Nat.toString_eq_ofList_toDigits, String.toList_ofList]
  induction n using Nat.strongRecOn with
  | ind n ih =>
    by_cases hlt : n < 10
    · rw [Nat.toDigits_of_lt_base hlt]
      exact hdigit n hlt h
    · rw [Nat.toDigits_of_base_le (by decide) (by omega)]
      have htenth := ih (n / 10) (by omega) (by omega)
      obtain ⟨c, ds, hds⟩ := List.exists_cons_of_ne_nil (Nat.toDigits_ne_nil (n := n / 10) (b := 10))
      rw [hds] at htenth ⊢
      exact htenth

/-! ## integers -/

/-- the numeral of an integer -/
def intNumeral (i : Int) : Numeral := ⟨decide (i < 0), (toString i.natAbs).toList, [], none⟩

theorem toList_toString_int (i : Int) : (toString i).toList = (intNumeral i).chars := by
  cases i with
  | ofNat n => exact (List.append_nil _).symm
  | negSucc n =>
    have htext : toString (Int.negSucc n) = "-" ++ toString (n + 1) := rfl
    have hneg : decide (Int.negSucc n < 0) = true := decide_eq_true (Int.negSucc_lt_zero n)
    have hchars : (intNumeral (Int.negSucc n)).chars = ['-'] ++ ((toString (n + 1)).toList ++ []) := by
      unfold intNumeral
      rw [hneg]
      rfl
    rw [htext, String.toList_append, hchars, List.append_nil]
    rfl

theorem sound_intNumeral (i : Int) : (intNumeral i).Sound where
  whole_ne_nil := toList_toString_ne_nil _
  whole _ := isDigit_of_mem_toString
  leading := by
    intro hlength
    by_cases hzero : i.natAbs = 0
    · have hone : (toString i.natAbs).toList.length = 1 := by
        rw [hzero]
        rfl
      have hlong : 1 < (toString i.natAbs).toList.length := hlength
      omega
    · exact head?_toString hzero
  places := nofun
  exponent := nofun

/-- a number of 64 bits, signed or unsigned, is read as the integer it is -/
theorem toInt?_intNumeral {i : Int} (hlow : -(2 ^ 63) ≤ i) (hhigh : i < 2 ^ 64) : (intNumeral i).toInt? = some i := by
  have hdigits : natOfDigits (intNumeral i).whole = i.natAbs := natOfDigits_toString _
  unfold Numeral.toInt?
  rw [hdigits]
  show (if decide (i < 0) then _ else _) = some i
  by_cases hneg : i < 0
  · rw [if_pos (decide_eq_true hneg)]
    have hfits : (i.natAbs != 0 && decide (i.natAbs ≤ 2 ^ 63)) = true := by
      simp only [Bool.and_eq_true, bne_iff_ne, decide_eq_true_eq]
      omega
    rw [if_pos hfits]
    congr 1
    omega
  · rw [if_neg (by simpa using hneg)]
    have hfits : i.natAbs < Numeral.wordBound := by
      unfold Numeral.wordBound
      omega
    rw [if_pos hfits]
    congr 1
    omega

theorem toInt?_intNumeral_toInt (i : Int64) : (intNumeral i.toInt).toInt? = some i.toInt := by
  have hlow := i.le_toInt
  have hhigh := i.toInt_lt
  exact toInt?_intNumeral (by omega) (by omega)

theorem readNumeral?_toString (i : Int) : readNumeral? (toString i).toList = some (intNumeral i, []) := by
  rw [toList_toString_int]
  simpa using readNumeral?_chars (sound_intNumeral i) endsNumeral_nil

/-! ## decimals -/

/-- The numeral of `± n · 10 ^ k` in JSON: positional while the first digit stands at most five places behind the
point and sixteen before it, and beyond that with an exponent. -/
def decimalNumeral (negative : Bool) (n : Nat) (k : Int) : Numeral :=
  let ds := (toString n).toList
  let top : Int := ds.length + k - 1
  if n = 0 then ⟨negative, ['0'], ['0'], none⟩
  else if -5 ≤ top ∧ top < 16 then
    if 0 ≤ k then ⟨negative, ds ++ List.replicate k.toNat '0', ['0'], none⟩
    else if ds.length ≤ (-k).toNat then
      ⟨negative, ['0'], List.replicate ((-k).toNat - ds.length) '0' ++ ds, none⟩
    else ⟨negative, ds.take (ds.length - (-k).toNat), ds.drop (ds.length - (-k).toNat), none⟩
  else ⟨negative, ds.take 1, ds.drop 1, some (decide (top < 0), (toString top.natAbs).toList)⟩

def Binary64.numeral (x : Binary64) : Numeral :=
  decimalNumeral x.isNegative (x.shortest .even).1 (x.shortest .even).2

/-- A numeral of digits and a power of ten is a zero, digits before the point, digits behind it, digits on both sides
of it, or digits with an exponent. -/
theorem decimalNumeral_cases {P : Numeral → Prop} {n : Nat} {k : Int} (negative : Bool)
    (zero : n = 0 → P ⟨negative, ['0'], ['0'], none⟩)
    (whole : n ≠ 0 → 0 ≤ k → P ⟨negative, (toString n).toList ++ List.replicate k.toNat '0', ['0'], none⟩)
    (places : k < 0 → (toString n).toList.length ≤ (-k).toNat →
      P ⟨negative, ['0'], List.replicate ((-k).toNat - (toString n).toList.length) '0' ++ (toString n).toList, none⟩)
    (point : n ≠ 0 → k < 0 → (-k).toNat < (toString n).toList.length →
      P ⟨negative, (toString n).toList.take ((toString n).toList.length - (-k).toNat),
        (toString n).toList.drop ((toString n).toList.length - (-k).toNat), none⟩)
    (scientific : ∀ top : Int, top = (toString n).toList.length + k - 1 →
      P ⟨negative, (toString n).toList.take 1, (toString n).toList.drop 1,
        some (decide (top < 0), (toString top.natAbs).toList)⟩) :
    P (decimalNumeral negative n k) := by
  unfold decimalNumeral
  dsimp only
  split
  · rename_i hn
    exact zero hn
  · rename_i hn
    split
    · split
      · rename_i hk
        exact whole hn hk
      · rename_i hk
        split
        · rename_i hlength
          exact places (by omega) hlength
        · rename_i hlength
          exact point hn (by omega) (by omega)
    · exact scientific _ rfl

theorem negative_decimalNumeral (negative : Bool) (n : Nat) (k : Int) :
    (decimalNumeral negative n k).negative = negative :=
  decimalNumeral_cases (P := fun m => m.negative = negative) negative (fun _ => rfl) (fun _ _ => rfl)
    (fun _ _ => rfl) (fun _ _ _ => rfl) fun _ _ => rfl

section

variable {n : Nat} {k : Int}

theorem length_toString (n : Nat) : (toString n).length = (toString n).toList.length := String.length_toList.symm

theorem body_of_point {negative : Bool} {whole places : List Char} (h : places ≠ []) :
    (⟨negative, whole, places, none⟩ : Numeral).body = whole ++ '.' :: places := by
  have hplaces : Numeral.placeChars places = '.' :: places := if_neg (by simpa using h)
  show whole ++ (Numeral.placeChars places ++ []) = _
  rw [hplaces, List.append_nil]

theorem toList_positional (hn : n ≠ 0) (negative : Bool)
    (htop : -5 ≤ ((toString n).toList.length : Int) + k - 1 ∧ ((toString n).toList.length : Int) + k - 1 < 16) :
    (Binary64.positional n k ++ if 0 ≤ k then ".0" else "").toList = (decimalNumeral negative n k).body := by
  have hne := toList_toString_ne_nil n
  unfold decimalNumeral Binary64.positional
  simp only [length_toString, beq_iff_eq, if_neg hn, if_pos htop]
  by_cases hk : 0 ≤ k
  · rw [if_pos hk, if_pos hk, if_pos hk, body_of_point (List.cons_ne_nil _ _)]
    rw [String.toList_append, String.toList_append, Binary64.toList_zeros]
    rfl
  · rw [if_neg hk, if_neg hk, if_neg hk, String.append_empty]
    by_cases hlength : (toString n).toList.length ≤ (-k).toNat
    · rw [if_pos hlength, if_pos hlength, body_of_point (by simp)]
      rw [String.toList_append, String.toList_append, Binary64.toList_zeros]
      rfl
    · rw [if_neg hlength, if_neg hlength, body_of_point]
      · simp
      · rw [Ne, List.drop_eq_nil_iff]
        have hpos := List.length_pos_iff.mpr hne
        omega

theorem toList_scientific (hn : n ≠ 0) (negative : Bool)
    (htop : ¬ (-5 ≤ ((toString n).toList.length : Int) + k - 1 ∧ ((toString n).toList.length : Int) + k - 1 < 16)) :
    (Binary64.scientific n ((toString n).toList.length + k - 1)).toList = (decimalNumeral negative n k).body := by
  unfold decimalNumeral Binary64.scientific
  simp only [if_neg hn, if_neg htop]
  generalize ((toString n).toList.length : Int) + k - 1 = top
  obtain ⟨c, cs, hcs⟩ := List.exists_cons_of_ne_nil (toList_toString_ne_nil n)
  rw [hcs]
  have hsign : (if top < 0 then "e-" else "e+").toList = 'e' :: [if decide (top < 0) = true then '-' else '+'] := by
    by_cases hneg : top < 0 <;> simp [hneg]
  cases cs with
  | nil =>
    simp [Numeral.body, Numeral.placeChars, Numeral.exponentChars, hsign]
  | cons d ds =>
    simp [Numeral.body, Numeral.placeChars, Numeral.exponentChars, hsign]

end

theorem toList_jsonText (x : Binary64) : x.jsonText.toList = x.numeral.chars := by
  have hsign : x.signText.toList = if x.isNegative then ['-'] else [] := by
    unfold Binary64.signText
    cases x.isNegative <;> rfl
  unfold Binary64.jsonText Binary64.numeral Numeral.chars
  dsimp only
  rw [String.toList_append, hsign, negative_decimalNumeral]
  congr 1
  simp only [length_toString, beq_iff_eq]
  split
  · rename_i hn
    unfold decimalNumeral
    rw [if_pos hn]
    rfl
  · rename_i hn
    split
    · rename_i htop
      exact toList_positional hn _ htop
    · rename_i htop
      exact toList_scientific hn _ htop

theorem sound_decimalNumeral (negative : Bool) (n : Nat) (k : Int) : (decimalNumeral negative n k).Sound := by
  have hne := toList_toString_ne_nil n
  have hdigits : ∀ c ∈ (toString n).toList, isDigit c = true := fun _ => isDigit_of_mem_toString
  have hzeros (j : Nat) : ∀ c ∈ List.replicate j '0', isDigit c = true := by
    intro c hc
    rw [(List.mem_replicate.mp hc).2]
    rfl
  have hzero : ∀ c ∈ ['0'], isDigit c = true := hzeros 1
  obtain ⟨c, cs, hcs⟩ := List.exists_cons_of_ne_nil hne
  refine decimalNumeral_cases negative (fun _ => ?_) (fun hn _ => ?_) (fun _ _ => ?_) (fun hn _ _ => ?_)
    fun top _ => ?_
  · exact ⟨List.cons_ne_nil _ _, hzero, fun h => absurd h (Nat.lt_irrefl 1), hzero, nofun⟩
  · have hhead := head?_toString hn
    refine ⟨by simp, List.forall_mem_append.mpr ⟨hdigits, hzeros _⟩, fun _ => ?_, hzero, nofun⟩
    rw [hcs] at hhead ⊢
    exact hhead
  · exact ⟨List.cons_ne_nil _ _, hzero, fun h => absurd h (Nat.lt_irrefl 1),
      List.forall_mem_append.mpr ⟨hzeros _, hdigits⟩, nofun⟩
  · have hhead := head?_toString hn
    obtain ⟨j, hj⟩ : ∃ j, (toString n).toList.length - (-k).toNat = j + 1 :=
      ⟨(toString n).toList.length - (-k).toNat - 1, by omega⟩
    rw [hj]
    refine ⟨by simp, fun d hd => hdigits d (List.mem_of_mem_take hd), fun _ => ?_,
      fun d hd => hdigits d (List.mem_of_mem_drop hd), nofun⟩
    rw [hcs] at hhead ⊢
    exact hhead
  · refine ⟨by simp, fun d hd => hdigits d (List.mem_of_mem_take hd), fun hlong => ?_,
      fun d hd => hdigits d (List.mem_of_mem_drop hd), ?_⟩
    · rw [hcs] at hlong
      exact absurd hlong (by simp)
    · rintro below ds hds
      obtain ⟨-, rfl⟩ := Prod.mk.inj (Option.some.inj hds)
      exact ⟨toList_toString_ne_nil _, fun _ => isDigit_of_mem_toString⟩

/-- a double is always told apart from an integer, by a point or an exponent -/
theorem toInt?_decimalNumeral (negative : Bool) (n : Nat) (k : Int) :
    (decimalNumeral negative n k).toInt? = none := by
  have hplaces {m : Numeral} (h : m.places ≠ []) : m.toInt? = none := by
    unfold Numeral.toInt?
    rw [if_neg (by simp [h])]
  refine decimalNumeral_cases (P := fun m => m.toInt? = none) negative (fun _ => hplaces (List.cons_ne_nil _ _))
    (fun _ _ => hplaces (List.cons_ne_nil _ _)) (fun _ _ => hplaces ?_) (fun _ _ _ => hplaces ?_) fun top _ => ?_
  · simp
  · rw [Ne, List.drop_eq_nil_iff]
    omega
  · unfold Numeral.toInt?
    rw [if_neg (by simp)]

/-! ## values -/

namespace Numeral

/-- the power of ten of the last digit -/
def power (n : Numeral) : Int :=
  (match n.exponent with
    | none => 0
    | some (negative, ds) => if negative then -(natOfDigits ds : Int) else natOfDigits ds) - n.places.length

/-- the number that a numeral stands for, without its sign -/
def magnitude (n : Numeral) : ℚ := natOfDigits (n.whole ++ n.places) * 10 ^ n.power

end Numeral

theorem magnitude_eq {m : Numeral} {n : Nat} {k : Int} (hdigits : natOfDigits (m.whole ++ m.places) = n)
    (hpower : m.power = k) : m.magnitude = n * 10 ^ k := by
  unfold Numeral.magnitude
  rw [hdigits, hpower]

/-- the numeral of digits and a power of ten stands for their product -/
theorem magnitude_decimalNumeral (negative : Bool) (n : Nat) (k : Int) :
    (decimalNumeral negative n k).magnitude = n * 10 ^ k := by
  refine decimalNumeral_cases (P := fun m => m.magnitude = n * 10 ^ k) negative (fun hn => ?_) (fun _ hk => ?_)
    (fun _ _ => ?_) (fun _ _ _ => ?_) fun top htop => ?_
  · have hzero : natOfDigits (['0'] ++ ['0']) = 0 := rfl
    rw [hn]
    show ((natOfDigits (['0'] ++ ['0']) : Nat) : ℚ) * 10 ^ _ = _
    rw [hzero, Nat.cast_zero, zero_mul, zero_mul]
  · show ((natOfDigits (_ ++ ['0']) : Nat) : ℚ) * 10 ^ (0 - 1 : Int) = _
    rw [natOfDigits_append_singleton, natOfDigits_append, natOfDigits_toString, natOfDigits_replicate,
      List.length_replicate]
    have hzero : digitValue '0' = 0 := rfl
    obtain ⟨j, rfl⟩ := Int.eq_ofNat_of_zero_le hk
    rw [hzero, zero_sub, zpow_neg_one, Int.toNat_natCast, zpow_natCast]
    push_cast
    ring
  · refine magnitude_eq ?_ ?_
    · show natOfDigits (['0'] ++ (List.replicate _ '0' ++ (toString n).toList)) = n
      rw [natOfDigits_append, natOfDigits_append, natOfDigits_replicate, natOfDigits_toString]
      have hzero : natOfDigits ['0'] = 0 := rfl
      rw [hzero, zero_mul, zero_mul, zero_add, zero_add]
    · simp only [Numeral.power, List.length_append, List.length_replicate]
      omega
  · refine magnitude_eq ?_ ?_
    · show natOfDigits (List.take _ _ ++ List.drop _ _) = n
      rw [List.take_append_drop, natOfDigits_toString]
    · simp only [Numeral.power, List.length_drop]
      omega
  · have hpos := List.length_pos_iff.mpr (toList_toString_ne_nil n)
    refine magnitude_eq ?_ ?_
    · show natOfDigits (List.take 1 _ ++ List.drop 1 _) = n
      rw [List.take_append_drop, natOfDigits_toString]
    · simp only [Numeral.power, List.length_drop, natOfDigits_toString, decide_eq_true_eq]
      split <;> omega

end TableAlgebra
