import Mathlib.Data.List.DropRight
import TableAlgebra.Config.Environment
import TableAlgebra.Proofs.Except
import TableAlgebra.Proofs.Text.LowerCase

/-!
# Words that variables are set to

The variable of the dialect takes the names of the dialects, the one of the flag the words for true and false, and
both take them in capitals as well.  The flag may have blanks around its word, the dialect may not.  Lower case
goes by the full Unicode mapping, but all these words are plain, so it lets no other texts in than their own
letters.

* `Spells`                          a word, in capitals or not;
* `Dialect.Named`, `Says`           a text that names a dialect, and one that says whether a flag is set;
* `readDialect_eq_ok`, `readDialect_eq_error`   what is read as a dialect, and what is refused;
* `readFlag_eq_ok`, `readFlag_eq_error`         what is read as a flag, and what is refused.
-/

namespace TableAlgebra

/-- the characters are those of the word, in capitals or not -/
def Spells (cs : List Char) (word : String) : Prop := cs.map Char.toLower = word.toList

instance (cs : List Char) (word : String) : Decidable (Spells cs word) :=
  inferInstanceAs (Decidable (_ = _))

/-! ## dialects -/

def Dialect.names : Dialect → List String
  | sqlite => ["sqlite"]
  | postgres => ["postgres", "postgresql", "pg"]

def Dialect.Named (d : Dialect) (text : String) : Prop := ∃ name ∈ d.names, Spells text.toList name

instance (d : Dialect) (text : String) : Decidable (d.Named text) :=
  inferInstanceAs (Decidable (∃ name ∈ _, _))

namespace Dialect

theorem named_iff {d : Dialect} {text : String} : d.Named text ↔ lowercase text ∈ d.names := by
  have hplain : ∀ name ∈ d.names, ∀ c ∈ name.toList, LetterCase.Plain c := by
    cases d <;> simp [names, LetterCase.Plain]
  constructor
  · rintro ⟨name, hname, hspells⟩
    rwa [(lowercase_eq_iff (hplain name hname)).mpr hspells]
  · intro h
    exact ⟨lowercase text, h, (lowercase_eq_iff (hplain _ h)).mp rfl⟩

theorem parse?_eq_ok {d : Dialect} {text : String} : parse? text = .ok d ↔ d.Named text := by
  rw [named_iff]
  unfold parse?
  cases d <;> grind [names]

/-- an unknown name is given back in lower case -/
theorem parse?_cases (text : String) : parse? text = .error (lowercase text) ∨ ∃ d, parse? text = .ok d := by
  unfold parse?
  dsimp only
  split
  · exact .inr ⟨sqlite, rfl⟩
  split
  · exact .inr ⟨postgres, rfl⟩
  · exact .inl rfl

theorem parse?_eq_error {text lower : String} :
    parse? text = .error lower ↔ lowercase text = lower ∧ ∀ d : Dialect, ¬ d.Named text := by
  constructor
  · intro h
    refine ⟨?_, fun d hd => ?_⟩
    · rcases parse?_cases text with herror | ⟨d, hd⟩
      · exact Except.error.inj (herror.symm.trans h)
      · exact nomatch hd.symm.trans h
    · exact nomatch (parse?_eq_ok.mpr hd).symm.trans h
  · rintro ⟨rfl, hunknown⟩
    rcases parse?_cases text with herror | ⟨d, hd⟩
    · exact herror
    · exact absurd (parse?_eq_ok.mp hd) (hunknown d)

end Dialect

theorem readDialect_eq_ok {text : String} {d : Dialect} : readDialect text = .ok d ↔ d.Named text :=
  mapError_eq_ok.trans Dialect.parse?_eq_ok

theorem readDialect_eq_error {text : String} {e : ConfigError} :
    readDialect text = .error e ↔ .unknownDialect (lowercase text) = e ∧ ∀ d : Dialect, ¬ d.Named text := by
  unfold readDialect
  rw [mapError_eq_error]
  simp only [Dialect.parse?_eq_error, and_assoc, exists_eq_left']
  exact And.comm

example : Dialect.postgres.Named "PostgreSQL" ∧ ¬ Dialect.postgres.Named "poſtgres" := by decide

/-! ## blanks -/

theorem exists_trimBlanks (text : String) : ∃ before after,
    text.toList = before ++ (trimBlanks text).toList ++ after ∧
      (∀ c ∈ before, isBlank c = true) ∧ (∀ c ∈ after, isBlank c = true) := by
  refine ⟨text.toList.takeWhile isBlank, (text.toList.dropWhile isBlank).rtakeWhile isBlank, ?_, ?_, ?_⟩
  · have hright : trimBlanksRight (text.toList.dropWhile isBlank)
        ++ (text.toList.dropWhile isBlank).rtakeWhile isBlank = text.toList.dropWhile isBlank :=
      List.rdropWhile_append_rtakeWhile
    unfold trimBlanks
    rw [String.toList_ofList, List.append_assoc, hright, List.takeWhile_append_dropWhile]
  · exact fun c hc => List.mem_takeWhile_imp hc
  · exact fun c hc => List.mem_rtakeWhile_imp hc

theorem dropWhile_isBlank {before core : List Char} (hbefore : ∀ c ∈ before, isBlank c = true)
    (hcore : ∀ c ∈ core, isBlank c = false) : (before ++ core).dropWhile isBlank = core := by
  rw [List.dropWhile_append_of_pos hbefore]
  cases core with
  | nil => rfl
  | cons c cs => rw [List.dropWhile_cons_of_neg (by simp [hcore c List.mem_cons_self])]

/-- what stands between blanks is the trimmed form, if it has none itself -/
theorem trimBlanks_eq {text : String} {before core after : List Char}
    (htext : text.toList = before ++ core ++ after) (hbefore : ∀ c ∈ before, isBlank c = true)
    (hafter : ∀ c ∈ after, isBlank c = true) (hcore : ∀ c ∈ core, isBlank c = false) :
    trimBlanks text = String.ofList core := by
  have hright : trimBlanksRight (core ++ after) = core := by
    unfold trimBlanksRight
    rw [List.reverse_append, dropWhile_isBlank (by simpa using hafter) (by simpa using hcore),
      List.reverse_reverse]
  unfold trimBlanks
  rw [htext, List.append_assoc, List.dropWhile_append_of_pos hbefore]
  -- with nothing between the blanks, the first cut takes those at the end as well
  cases core with
  | nil => rw [List.nil_append, List.dropWhile_eq_nil_iff.mpr hafter, trimBlanksRight, List.reverse_nil,
      List.dropWhile_nil, List.reverse_nil]
  | cons c cs =>
    have hc : ¬ isBlank c = true := by simp [hcore c List.mem_cons_self]
    rw [List.cons_append, List.dropWhile_cons_of_neg hc, ← List.cons_append, hright]

/-! ## flags -/

def flagWords : Bool → List String
  | true => ["1", "true", "yes", "on"]
  | false => ["0", "false", "no", "off"]

/-- the text is a word for the truth value, with blanks around it perhaps -/
def Says (value : Bool) (text : String) : Prop :=
  ∃ before core after, text.toList = before ++ core ++ after ∧
    (∀ c ∈ before, isBlank c = true) ∧ (∀ c ∈ after, isBlank c = true) ∧
    ∃ word ∈ flagWords value, Spells core word

theorem toLower_of_isBlank {c : Char} (h : isBlank c = true) : c.toLower = c := by
  unfold Char.toLower
  split
  case isTrue hupper =>
    have hlow : 65 ≤ c.toNat := UInt32.le_iff_toNat_le.mp hupper.1
    have hhigh : c.toNat ≤ 90 := UInt32.le_iff_toNat_le.mp hupper.2
    simp only [isBlank, Bool.or_eq_true, Bool.and_eq_true, decide_eq_true_eq, beq_iff_eq] at h
    omega
  case isFalse => rfl

theorem says_iff {value : Bool} {text : String} :
    Says value text ↔ lowercase (trimBlanks text) ∈ flagWords value := by
  have hplain : ∀ word ∈ flagWords value, ∀ c ∈ word.toList, LetterCase.Plain c ∧ isBlank c = false := by
    cases value <;> simp [flagWords, LetterCase.Plain, isBlank]
  constructor
  · rintro ⟨before, core, after, htext, hbefore, hafter, word, hword, hspells⟩
    have hcore : ∀ c ∈ core, isBlank c = false := by
      intro c hc
      have hlower := (hplain word hword c.toLower (hspells ▸ List.mem_map_of_mem hc)).2
      rw [Bool.eq_false_iff] at hlower ⊢
      exact fun hblank => hlower (by rwa [toLower_of_isBlank hblank])
    have hlower : lowercase (String.ofList core) = word :=
      (lowercase_eq_iff fun c hc => (hplain word hword c hc).1).mpr (by rwa [String.toList_ofList])
    rwa [trimBlanks_eq htext hbefore hafter hcore, hlower]
  · intro h
    obtain ⟨before, after, htext, hbefore, hafter⟩ := exists_trimBlanks text
    refine ⟨before, (trimBlanks text).toList, after, htext, hbefore, hafter, _, h, ?_⟩
    exact (lowercase_eq_iff fun c hc => (hplain _ h c hc).1).mp rfl

theorem parseFlag?_eq_some {value : Bool} {text : String} :
    parseFlag? text = some value ↔ Says value text := by
  rw [says_iff]
  unfold parseFlag?
  cases value <;> grind [flagWords]

theorem readFlag_eq_ok {text : String} {value : Bool} : readFlag text = .ok value ↔ Says value text := by
  rw [← parseFlag?_eq_some]
  unfold readFlag
  cases parseFlag? text <;> simp

theorem readFlag_eq_error {text : String} {e : ConfigError} :
    readFlag text = .error e ↔ .notFlag text = e ∧ ∀ value, ¬ Says value text := by
  simp only [← parseFlag?_eq_some, ← Option.eq_none_iff_forall_ne_some]
  unfold readFlag
  cases parseFlag? text <;> simp

end TableAlgebra
