import TableAlgebra.Text.Identifier
import TableAlgebra.Text.LetterCase
import TableAlgebra.Text.Quoted

/-!
# Lower case of texts put together

All that the lower-case form of a character depends on besides the character is whether a letter with case
stands next to a sigma, marks passed over.  So a text can be cut in front of, and behind, a character that is
neither a letter with case nor passed over, and each part mapped on its own.  Quotes are passed over, which
makes the lower-case form of a quoted text the quoted lower-case form.

* `lowerAfter_congr`       the text in front matters by the letter it ends with, and by nothing else;
* `Bar`                    a character at which texts can be cut;
* `lowercase_append_of_begins`, `lowercase_append_of_ends`   the lower-case form of two texts, the second of which
                           begins or the first of which ends with such a character;
* `Plain`                  a character of ASCII that comes from ASCII alone;
* `lowercase_quote`        the lower-case form of a quoted text;
* `lowercase_eq_iff`       the texts whose lower-case form is a word of ASCII;
* `isIdentifier_lowercase` identifiers stay identifiers.
-/

namespace TableAlgebra

namespace LetterCase

/-! ## neighbours -/

theorem meetsCased_cons (c : Char) (cs : List Char) :
    meetsCased (c :: cs) = if isIgnorable c then meetsCased cs else isCased c := by
  unfold meetsCased
  rw [List.dropWhile_cons]
  cases isIgnorable c <;> rfl

theorem meetsCased_append {ys : List Char} (h : meetsCased ys = false) (xs : List Char) :
    meetsCased (xs ++ ys) = meetsCased xs := by
  induction xs with
  | nil => exact h
  | cons x xs ih => rw [List.cons_append, meetsCased_cons, meetsCased_cons, ih]

/-- the text in front matters by the letter it ends with, and by nothing else -/
theorem lowerAfter_congr {before before' : List Char} (h : meetsCased before = meetsCased before')
    (cs : List Char) : lowerAfter before cs = lowerAfter before' cs := by
  induction cs generalizing before before' with
  | nil => rfl
  | cons c cs ih =>
    have hnext : meetsCased (c :: before) = meetsCased (c :: before') := by
      rw [meetsCased_cons, meetsCased_cons, h]
    rw [lowerAfter, lowerAfter, h, ih hnext]

theorem lowerAfter_append {ys : List Char} (h : meetsCased ys = false) (before xs : List Char) :
    lowerAfter before (xs ++ ys) = lowerAfter before xs ++ lowerAfter (xs.reverse ++ before) ys := by
  induction xs generalizing before with
  | nil => rfl
  | cons x xs ih =>
    rw [List.cons_append, lowerAfter, lowerAfter, meetsCased_append h, ih, List.reverse_cons,
      List.append_assoc, List.append_assoc]
    rfl

/-! ## characters -/

/-- what holds of the characters of ASCII one by one -/
theorem forall_ascii {p : Char → Prop} (h : ∀ n : Fin 128, p (Char.ofNat n)) {c : Char}
    (hc : c.toNat < 0x80) : p c := by
  rw [← Char.ofNat_toNat c]
  exact h ⟨c.toNat, hc⟩

theorem bounds_of_find? {r : CaseRange} {n : Nat} (h : lowerRanges.find? (·.holds n) = some r) :
    r ∈ lowerRanges ∧ r.first ≤ n ∧ n ≤ r.last := by
  have hholds := List.find?_some h
  simp only [CaseRange.holds, Bool.and_eq_true, decide_eq_true_eq] at hholds
  exact ⟨List.mem_of_find?_eq_some h, hholds.1⟩

theorem toNat_ofNat_cases (n : Nat) : Char.ofNat n = '\x00' ∨ (Char.ofNat n).toNat = n := by
  unfold Char.ofNat
  by_cases hvalid : n.isValidChar
  · rw [dif_pos hvalid]
    exact .inr rfl
  · rw [dif_neg hvalid]
    exact .inl rfl

theorem lowerAfter_cons_of_ascii {c : Char} (h : c.toNat < 0x80) (before cs : List Char) :
    lowerAfter before (c :: cs) = c.toLower :: lowerAfter (c :: before) cs := by
  have hsigma : c ≠ 'Σ' := by
    rintro rfl
    exact absurd h (by decide)
  rw [lowerAfter, if_neg (by simpa using hsigma), lowerChar, if_pos h]
  rfl

theorem lowerAfter_of_ascii {cs : List Char} (h : ∀ c ∈ cs, c.toNat < 0x80) (before : List Char) :
    lowerAfter before cs = cs.map Char.toLower := by
  induction cs generalizing before with
  | nil => rfl
  | cons c cs ih =>
    obtain ⟨hc, hcs⟩ := List.forall_mem_cons.mp h
    rw [lowerAfter_cons_of_ascii hc, ih hcs, List.map_cons]

/-! ## bars -/

/-- a character that is neither a letter with case nor passed over -/
def Bar (c : Char) : Prop := isIgnorable c = false ∧ isCased c = false

instance (c : Char) : Decidable (Bar c) := inferInstanceAs (Decidable (_ ∧ _))

theorem Bar.meetsCased {c : Char} (h : Bar c) (cs : List Char) : meetsCased (c :: cs) = false := by
  rw [meetsCased_cons, h.1]
  exact h.2

theorem Bar.lowerAfter_cons {c : Char} (h : Bar c) (before cs : List Char) :
    lowerAfter before (c :: cs) = lowerAfter [] [c] ++ lowerAfter [] cs := by
  have hsigma : c ≠ 'Σ' := by
    rintro rfl
    exact absurd h (by decide +kernel)
  have hcut (front : List Char) : lowerAfter (c :: front) cs = lowerAfter [] cs :=
    lowerAfter_congr (h.meetsCased front) cs
  simp [lowerAfter, hsigma, hcut]

theorem Bar.lowerAfter_append {c : Char} (h : Bar c) (before xs ys : List Char) :
    lowerAfter before (xs ++ c :: ys)
      = lowerAfter before xs ++ lowerAfter [] [c] ++ lowerAfter [] ys := by
  rw [LetterCase.lowerAfter_append (h.meetsCased ys), h.lowerAfter_cons, List.append_assoc]

/-! ## quotes -/

theorem ofNat_ne_quote {n : Nat} (h : 39 < n) : Char.ofNat n ≠ '\'' := by
  intro hquote
  rcases toNat_ofNat_cases n with hnull | hnat
  · exact absurd (hnull.symm.trans hquote) (by decide)
  · rw [hquote] at hnat
    exact absurd hnat (Nat.ne_of_lt h)

theorem quote_not_mem_lowerChar {c : Char} (h : c ≠ '\'') : '\'' ∉ lowerChar c := by
  have hsmall : ∀ n : Fin 128, Char.ofNat n ≠ '\'' → (Char.ofNat n).toLower ≠ '\'' := by decide +kernel
  -- every letter in lower case lies behind the quote
  have hranges : ∀ r ∈ lowerRanges, (39 : Int) < r.first + r.delta := by decide +kernel
  unfold lowerChar
  split
  case isTrue hascii =>
    rw [List.mem_singleton]
    have hlower := forall_ascii (p := fun c => c ≠ '\'' → c.toLower ≠ '\'') hsmall hascii
    exact (hlower h).symm
  case isFalse =>
    unfold lowerWide
    split
    · decide
    split
    case h_1 r hr =>
      obtain ⟨hmem, hfirst, -⟩ := bounds_of_find? hr
      have hrange := hranges r hmem
      rw [List.mem_singleton]
      exact (ofNat_ne_quote (by omega)).symm
    case h_2 =>
      rw [List.mem_singleton]
      exact h.symm

theorem isIgnorable_quote : isIgnorable '\'' = true := by decide

theorem meetsCased_encode (cs rest : List Char) :
    meetsCased (Quoted.encode cs ++ rest) = meetsCased (cs ++ rest) := by
  induction cs with
  | nil => rfl
  | cons c cs ih =>
    rw [Quoted.encode_cons]
    by_cases hquote : c = '\''
    · subst hquote
      rw [if_pos rfl]
      simp only [List.cons_append, meetsCased_cons, isIgnorable_quote, if_true, ih]
    · rw [if_neg hquote, List.cons_append, List.cons_append, meetsCased_cons, meetsCased_cons, ih]

theorem encode_of_not_mem {cs : List Char} (h : '\'' ∉ cs) : Quoted.encode cs = cs := by
  induction cs with
  | nil => rfl
  | cons c cs ih =>
    obtain ⟨hc, hcs⟩ := not_or.mp (mt List.mem_cons.mpr h)
    rw [Quoted.encode_cons, if_neg (Ne.symm hc), ih hcs]

theorem meetsCased_quote (cs : List Char) : meetsCased ('\'' :: cs) = meetsCased cs := by
  rw [meetsCased_cons, isIgnorable_quote, if_pos rfl]

/-- a quoted text is mapped between its quotes, inner quotes staying doubled -/
theorem lowerAfter_encode {before before' : List Char} (h : meetsCased before = meetsCased before')
    (cs : List Char) : lowerAfter before (Quoted.encode cs ++ ['\''])
      = Quoted.encode (lowerAfter before' cs) ++ ['\''] := by
  have hquote (front rest : List Char) :
      lowerAfter front ('\'' :: rest) = '\'' :: lowerAfter ('\'' :: front) rest :=
    lowerAfter_cons_of_ascii (by decide) front rest
  induction cs generalizing before before' with
  | nil => exact hquote before []
  | cons c cs ih =>
    rw [Quoted.encode_cons]
    by_cases hc : c = '\''
    · subst hc
      have hnext : meetsCased ('\'' :: '\'' :: before) = meetsCased ('\'' :: before') := by
        rw [meetsCased_quote, meetsCased_quote, meetsCased_quote, h]
      rw [if_pos rfl, List.cons_append, List.cons_append, hquote, hquote, hquote, ih hnext,
        Quoted.encode_cons, if_pos rfl]
      rfl
    · have hnext : meetsCased (c :: before) = meetsCased (c :: before') := by
        rw [meetsCased_cons, meetsCased_cons, h]
      -- the closing quote is no letter, so a sigma at the end stays at the end
      have hrest : meetsCased (Quoted.encode cs ++ ['\'']) = meetsCased cs := by
        rw [meetsCased_encode, meetsCased_append]
        exact meetsCased_quote []
      rw [if_neg hc, List.cons_append, lowerAfter, lowerAfter, h, hrest, ih hnext, Quoted.encode_append,
        List.append_assoc]
      congr 1
      refine (encode_of_not_mem ?_).symm
      split
      · split <;> decide
      · exact quote_not_mem_lowerChar hc

/-! ## plain words -/

/-- A character of ASCII that is in the lower-case form of no character beyond ASCII.  The `k` is in that of the
sign for kelvin, and the null stands in for code points that are none. -/
def Plain (c : Char) : Prop := c.toNat < 0x80 ∧ c ≠ 'k' ∧ c ≠ '\x00'

instance (c : Char) : Decidable (Plain c) := inferInstanceAs (Decidable (_ ∧ _))

theorem exists_not_plain {c : Char} (h : 0x80 ≤ c.toNat) : ∃ d ∈ lowerWide c, ¬ Plain d := by
  have hranges : ∀ r ∈ lowerRanges,
      (0x80 : Int) ≤ r.first + r.delta ∨ r.first = r.last ∧ r.first + r.delta = 'k'.toNat := by decide +kernel
  unfold lowerWide
  split
  · exact ⟨'\u0307', by decide, by decide⟩
  split
  case h_1 r hr =>
    obtain ⟨hmem, hfirst, hlast⟩ := bounds_of_find? hr
    refine ⟨_, List.mem_singleton_self _, fun hplain => ?_⟩
    obtain ⟨hascii, hk, hnull⟩ := hplain
    have hnat := (toNat_ofNat_cases (c.toNat + r.delta).toNat).resolve_left hnull
    rw [hnat] at hascii
    rcases hranges r hmem with hwide | ⟨hone, hkelvin⟩
    · omega
    · have hcode : (c.toNat + r.delta).toNat = 'k'.toNat := by omega
      exact hk (by rw [hcode]; rfl)
  case h_2 => exact ⟨c, List.mem_singleton_self c, fun hplain => absurd hplain.1 (by omega)⟩

theorem ascii_of_lowerAfter {before cs : List Char} (h : ∀ d ∈ lowerAfter before cs, Plain d) :
    ∀ c ∈ cs, c.toNat < 0x80 := by
  induction cs generalizing before with
  | nil => exact fun c hc => absurd hc List.not_mem_nil
  | cons c cs ih =>
    rw [lowerAfter, List.forall_mem_append] at h
    refine List.forall_mem_cons.mpr ⟨?_, ih h.2⟩
    refine Nat.lt_of_not_le fun hwide => ?_
    have hchar := h.1
    split at hchar
    · split at hchar <;> exact absurd (hchar _ (List.mem_singleton_self _)) (by decide)
    · rw [lowerChar, if_neg (Nat.not_lt.mpr hwide)] at hchar
      obtain ⟨d, hd, hnot⟩ := exists_not_plain hwide
      exact hnot (hchar d hd)

theorem toNat_lt_of_toLower {c : Char} (h : c.toLower.toNat < 0x80) : c.toNat < 0x80 := by
  unfold Char.toLower at h
  split at h
  case isTrue hupper =>
    have hle : c.val ≤ 90 := hupper.2
    exact Nat.lt_of_le_of_lt (UInt32.le_iff_toNat_le.mp hle) (by decide)
  case isFalse => exact h

end LetterCase

/-! ## texts -/

open LetterCase

theorem toList_lowercase (text : String) : (lowercase text).toList = lowerAfter [] text.toList :=
  String.toList_ofList

/-- a text is cut in front of a character that is no letter -/
theorem lowercase_append_of_begins {rest : String} {c : Char} {cs : List Char}
    (hrest : rest.toList = c :: cs) (hc : Bar c) (text : String) :
    lowercase (text ++ rest) = lowercase text ++ lowercase rest := by
  rw [← String.toList_inj, String.toList_append, toList_lowercase, toList_lowercase, toList_lowercase,
    String.toList_append, hrest, hc.lowerAfter_append, hc.lowerAfter_cons [] cs, List.append_assoc]

/-- a text is cut behind a character that is no letter -/
theorem lowercase_append_of_ends {text : String} {c : Char} {cs : List Char}
    (htext : text.toList = cs ++ [c]) (hc : Bar c) (rest : String) :
    lowercase (text ++ rest) = lowercase text ++ lowercase rest := by
  have hend : lowerAfter [] (cs ++ [c]) = lowerAfter [] cs ++ lowerAfter [] [c] := by
    rw [hc.lowerAfter_append]
    exact List.append_nil _
  rw [← String.toList_inj, String.toList_append, toList_lowercase, toList_lowercase, toList_lowercase,
    String.toList_append, htext, hend, List.append_assoc, List.singleton_append, hc.lowerAfter_append]

theorem toList_lowercase_of_ascii {text : String} (h : ∀ c ∈ text.toList, c.toNat < 0x80) :
    (lowercase text).toList = text.toList.map Char.toLower := by
  rw [toList_lowercase, lowerAfter_of_ascii h]

theorem lowercase_of_lower {text : String} (h : ∀ c ∈ text.toList, c.toNat < 0x80 ∧ c.toLower = c) :
    lowercase text = text := by
  rw [← String.toList_inj, toList_lowercase_of_ascii fun c hc => (h c hc).1,
    List.map_congr_left fun c hc => (h c hc).2, List.map_id']

theorem lowercase_ofList_of_lower {cs : List Char} (h : ∀ c ∈ cs, c.toNat < 0x80 ∧ c.toLower = c) :
    lowercase (String.ofList cs) = String.ofList cs := by
  refine lowercase_of_lower ?_
  rwa [String.toList_ofList]

/-- the texts with a plain word as their lower-case form are those that spell it in capitals or not -/
theorem lowercase_eq_iff {word : String} (hword : ∀ d ∈ word.toList, Plain d) {text : String} :
    lowercase text = word ↔ text.toList.map Char.toLower = word.toList := by
  rw [← String.toList_inj]
  constructor
  · intro h
    have hascii : ∀ c ∈ text.toList, c.toNat < 0x80 := by
      have hplain : ∀ d ∈ lowerAfter [] text.toList, Plain d := by rwa [← toList_lowercase, h]
      exact ascii_of_lowerAfter hplain
    rw [← toList_lowercase_of_ascii hascii, h]
  · intro h
    have hascii : ∀ c ∈ text.toList, c.toNat < 0x80 := fun c hc =>
      toNat_lt_of_toLower (hword c.toLower (h ▸ List.mem_map_of_mem hc)).1
    rw [toList_lowercase_of_ascii hascii, h]

theorem lowercase_quote (text : String) : lowercase (quote text) = quote (lowercase text) := by
  have hopen (cs : List Char) : lowerAfter [] ('\'' :: cs) = '\'' :: lowerAfter ['\''] cs :=
    lowerAfter_cons_of_ascii (by decide) [] cs
  rw [← String.toList_inj, toList_quote, toList_lowercase, toList_lowercase, toList_quote, hopen,
    lowerAfter_encode (meetsCased_quote [])]

theorem isIdentifierPart_ascii {c : Char} (h : isIdentifierPart c = true) : c.toNat < 0x80 := by
  simp only [isIdentifierPart, isIdentifierStart, Bool.or_eq_true, Bool.and_eq_true, decide_eq_true_eq,
    beq_iff_eq] at h
  rcases h with ((⟨-, h⟩ | ⟨-, h⟩) | ⟨-, h⟩) | rfl
  · exact Nat.lt_of_le_of_lt h (by decide)
  · exact Nat.lt_of_le_of_lt h (by decide)
  · exact Nat.lt_of_le_of_lt h (by decide)
  · decide

theorem isIdentifier_lowercase {name : String} (h : isIdentifier name = true) :
    isIdentifier (lowercase name) = true := by
  have hstart : ∀ n : Fin 128, isIdentifierStart (Char.ofNat n) = true →
      isIdentifierStart (Char.ofNat n).toLower = true := by decide +kernel
  have hpart : ∀ n : Fin 128, isIdentifierPart (Char.ofNat n) = true →
      isIdentifierPart (Char.ofNat n).toLower = true := by decide +kernel
  have hascii : ∀ c ∈ name.toList, c.toNat < 0x80 := fun c hc =>
    isIdentifierPart_ascii (isIdentifierPart_of_mem h hc)
  unfold isIdentifier
  rw [toList_lowercase_of_ascii hascii]
  unfold isIdentifier at h
  cases hname : name.toList with
  | nil => simp [hname, isIdentifierChars] at h
  | cons c cs =>
    rw [hname, isIdentifierChars_cons, Bool.and_eq_true, List.all_eq_true] at h
    rw [hname] at hascii
    obtain ⟨hc, hcs⟩ := List.forall_mem_cons.mp hascii
    rw [List.map_cons, isIdentifierChars_cons, Bool.and_eq_true, List.all_eq_true]
    refine ⟨forall_ascii (p := fun c => isIdentifierStart c = true → isIdentifierStart c.toLower = true)
      hstart hc h.1, fun d hd => ?_⟩
    obtain ⟨e, he, rfl⟩ := List.mem_map.mp hd
    exact forall_ascii (p := fun c => isIdentifierPart c = true → isIdentifierPart c.toLower = true)
      hpart (hcs e he) (h.2 e he)

end TableAlgebra
