import TableAlgebra.Json.Value
import TableAlgebra.Proofs.Json.Numeral

/-!
# Compact texts are read as they were written

A string is read up to its closing quote, and its escapes stand for the characters that were escaped; a numeral is
read up to a comma or a bracket.  The rest is by induction on the fuel of the reader: the fuel that is left after a
bracket, a comma or a colon is still more than the length of what follows.

* `readUnits?_escaped`     the characters of a string are read as their code points;
* `Json.written`           what a value is written as;
* `Json.ReadsUpTo`         so much fuel reads texts up to that length;
* `Json.parse?_compact`    the compact text of a value is read as what was written.
-/

namespace TableAlgebra

/-! ## strings -/

theorem hexValue?_hexDigit : ∀ d < 16, hexValue? (hexDigit d) = some d := by decide

/-- two hexadecimal digits after two zeros stand for a number below 256 -/
theorem hexUnit?_hexDigit {n : Nat} (h : n < 256) :
    hexUnit? '0' '0' (hexDigit (n / 16)) (hexDigit (n % 16)) = some n := by
  have hhigh := hexValue?_hexDigit (n / 16) (by omega)
  have hlow := hexValue?_hexDigit (n % 16) (by omega)
  have hzero : hexValue? '0' = some 0 := rfl
  unfold hexUnit?
  rw [hhigh, hlow, hzero]
  show some (4096 * 0 + 256 * 0 + 16 * (n / 16) + n % 16) = some n
  rw [Option.some.injEq]
  omega

/-- puts one more unit in front of those that are read -/
def consUnit (unit : Nat) (read : List Nat × List Char) : List Nat × List Char := (unit :: read.1, read.2)

section

variable {c e : Char}

/-- an escape by a letter is read as the character it stands for -/
theorem readUnits?_letter (h : escaped? e = some c) (rest : List Char) :
    readUnits? ('\\' :: e :: rest) = (readUnits? rest).map (consUnit c.toNat) := by
  have hu : e ≠ 'u' := by
    rintro rfl
    exact nomatch h
  rw [readUnits?]
  · rw [h]
    cases readUnits? rest <;> rfl
  · exact fun _ _ _ _ _ he _ => hu he

theorem readUnits?_control (h : c.toNat < 0x20) (rest : List Char) :
    readUnits? ('\\' :: 'u' :: '0' :: '0' :: hexDigit (c.toNat / 16) :: hexDigit (c.toNat % 16) :: rest)
      = (readUnits? rest).map (consUnit c.toNat) := by
  rw [readUnits?, hexUnit?_hexDigit (by omega)]
  cases readUnits? rest <;> rfl

theorem readUnits?_plain (hquote : c ≠ '"') (hslash : c ≠ '\\') (hcontrol : ¬ c.toNat < 0x20) (rest : List Char) :
    readUnits? (c :: rest) = (readUnits? rest).map (consUnit c.toNat) := by
  rw [readUnits?]
  · rw [if_neg (by simp [hslash, hcontrol])]
    cases readUnits? rest <;> rfl
  · exact hquote
  · exact fun _ _ _ _ _ hc _ => hslash hc
  · exact fun _ _ hc _ => hslash hc

theorem readUnits?_escapeJsonChar (c : Char) (rest : List Char) :
    readUnits? (escapeJsonChar c ++ rest) = (readUnits? rest).map (consUnit c.toNat) := by
  unfold escapeJsonChar
  simp only [beq_iff_eq]
  split
  · subst c
    exact readUnits?_letter rfl rest
  split
  · subst c
    exact readUnits?_letter rfl rest
  split
  · subst c
    exact readUnits?_letter rfl rest
  split
  · subst c
    exact readUnits?_letter rfl rest
  split
  · subst c
    exact readUnits?_letter rfl rest
  split
  · subst c
    exact readUnits?_letter rfl rest
  split
  · subst c
    exact readUnits?_letter rfl rest
  split
  · rename_i hcontrol
    exact readUnits?_control hcontrol rest
  · rename_i hquote hslash _ _ _ _ _ hcontrol
    exact readUnits?_plain hquote hslash hcontrol rest

end

/-- the characters of a string in JSON are read as their code points, up to the closing quote -/
theorem readUnits?_escaped (cs rest : List Char) :
    readUnits? (cs.flatMap escapeJsonChar ++ '"' :: rest) = some (cs.map Char.toNat, rest) := by
  induction cs with
  | nil => rfl
  | cons c cs ih =>
    rw [List.flatMap_cons, List.append_assoc, readUnits?_escapeJsonChar, ih]
    rfl

/-- code points of characters are no surrogates, so they stand for those characters -/
theorem decodeUnits?_map_toNat (cs : List Char) : decodeUnits? (cs.map Char.toNat) = some cs := by
  induction cs with
  | nil => rfl
  | cons c cs ih =>
    have hvalid : c.toNat < 0xD800 ∨ 0xDFFF < c.toNat ∧ c.toNat < 0x110000 := c.valid
    have hlow : ¬ (0xDC00 ≤ c.toNat ∧ c.toNat ≤ 0xDFFF) := by omega
    have hhigh : ¬ (0xD800 ≤ c.toNat ∧ c.toNat ≤ 0xDBFF) := by omega
    rw [List.map_cons, decodeUnits?.eq_def]
    simp only [Bool.and_eq_true, decide_eq_true_eq]
    rw [if_neg hlow, if_neg hhigh, ih, Char.ofNat_toNat]
    rfl

/-! ## values -/

/-- a number as it is written; infinities and NaN are written as null -/
def JsonNumber.written : JsonNumber → Written
  | integer i => .number (intNumeral i)
  | float x => if x.isFinite then .number x.numeral else .null

namespace Json

mutual

def written : Json → Written
  | null => .null
  | bool b => .bool b
  | number n => n.written
  | string s => .string (s.toList.map Char.toNat)
  | array elements => .array (writtenElements elements)
  | object members => .object (writtenMembers members)

def writtenElements : List Json → List Written
  | [] => []
  | j :: js => written j :: writtenElements js

def writtenMembers : List JsonMember → List WrittenMember
  | [] => []
  | m :: ms => writtenMember m :: writtenMembers ms

def writtenMember : JsonMember → WrittenMember
  | ⟨name, value⟩ => ⟨name.toList.map Char.toNat, written value⟩

end

end Json

theorem skipJsonBlanks_cons {c : Char} (h : isJsonBlank c = false) (cs : List Char) :
    skipJsonBlanks (c :: cs) = c :: cs := by
  unfold skipJsonBlanks
  rw [List.dropWhile_cons, if_neg (by simp [h])]

/-- a numeral begins with a minus or a digit -/
theorem Numeral.Sound.chars_eq {n : Numeral} (h : n.Sound) :
    ∃ c cs, n.chars = c :: cs ∧ (c = '-' ∨ isDigit c = true) := by
  obtain ⟨c, ds, hwhole⟩ := List.exists_cons_of_ne_nil h.whole_ne_nil
  have hbody : n.body = c :: (ds ++ (Numeral.placeChars n.places ++ Numeral.exponentChars n.exponent)) := by
    rw [Numeral.body, hwhole]
    rfl
  unfold Numeral.chars
  cases n.negative with
  | true => exact ⟨'-', n.body, rfl, .inl rfl⟩
  | false => exact ⟨c, _, hbody, .inr (h.whole c (hwhole ▸ List.mem_cons_self))⟩

theorem isJsonBlank_eq_false {c : Char} (h : c = '-' ∨ isDigit c = true) : isJsonBlank c = false := by
  by_contra hblank
  simp only [isJsonBlank, Bool.not_eq_false, Bool.or_eq_true, beq_iff_eq] at hblank
  rcases hblank with ((rfl | rfl) | rfl) | rfl <;> exact absurd h (by decide)

namespace Written

theorem read_number (fuel : Nat) {n : Numeral} (h : n.Sound) {rest : List Char} (hrest : EndsNumeral rest) :
    read (fuel + 1) (n.chars ++ rest) = some (number n, rest) := by
  have hread := readNumeral?_chars h hrest
  obtain ⟨c, cs, hcs, hc⟩ := h.chars_eq
  have hother {d : Char} {ds : List Char} (heq : c :: (cs ++ rest) = d :: ds) : d = '-' ∨ isDigit d = true :=
    (List.cons.inj heq).1 ▸ hc
  rw [hcs, List.cons_append] at hread ⊢
  rw [read, skipJsonBlanks_cons (isJsonBlank_eq_false hc)]
  split
  · rename_i heq
    exact absurd (hother heq) (by decide)
  · rename_i heq
    exact absurd (hother heq) (by decide)
  · rename_i heq
    exact absurd (hother heq) (by decide)
  · rename_i heq
    exact absurd (hother heq) (by decide)
  · rename_i heq
    exact absurd (hother heq) (by decide)
  · rename_i heq
    exact absurd (hother heq) (by decide)
  · rw [hread]
    rfl

theorem read_string (fuel : Nat) (s : String) (rest : List Char) :
    read (fuel + 1) ((jsonString s).toList ++ rest) = some (string (s.toList.map Char.toNat), rest) := by
  have htext : (jsonString s).toList ++ rest = '"' :: (s.toList.flatMap escapeJsonChar ++ '"' :: rest) := by
    simp [jsonString]
  rw [htext]
  show (readUnits? (s.toList.flatMap escapeJsonChar ++ '"' :: rest)).map _ = _
  rw [readUnits?_escaped]
  rfl

theorem read_text (fuel : Nat) (n : JsonNumber) {rest : List Char} (hrest : EndsNumeral rest) :
    read (fuel + 1) (n.text.toList ++ rest) = some (n.written, rest) := by
  cases n with
  | integer i =>
    show read (fuel + 1) ((toString i).toList ++ rest) = _
    rw [toList_toString_int]
    exact read_number fuel (sound_intNumeral i) hrest
  | float x =>
    unfold JsonNumber.text JsonNumber.written
    dsimp only
    split
    · rw [toList_jsonText]
      exact read_number fuel (sound_decimalNumeral _ _ _) hrest
    · rfl

end Written

/-! ## compact texts -/

namespace Json

/-- the text of the elements of an array, or of the members of an object -/
def listed (texts : List String) : List Char := (",".intercalate texts).toList

theorem listed_singleton (text : String) : listed [text] = text.toList := by
  rw [listed, String.intercalate_singleton]

theorem listed_cons_cons (text next : String) (texts : List String) :
    listed (text :: next :: texts) = text.toList ++ ',' :: listed (next :: texts) := by
  rw [listed, String.intercalate_cons_cons, String.toList_append, String.toList_append, List.append_assoc]
  rfl

theorem toList_compact_array (elements : List Json) :
    (array elements).compact.toList = '[' :: (listed (compactElements elements) ++ [']']) := by
  rw [compact, String.toList_append, String.toList_append]
  rfl

theorem toList_compact_object (members : List JsonMember) :
    (object members).compact.toList = '\x7b' :: (listed (compactMembers members) ++ ['\x7d']) := by
  rw [compact, String.toList_append, String.toList_append]
  rfl

/-- the text of a value begins with no blank, and with no closing bracket -/
theorem exists_compact_cons (j : Json) : ∃ c cs, j.compact.toList = c :: cs ∧ isJsonBlank c = false ∧ c ≠ ']' := by
  have hnumeral {n : Numeral} (h : n.Sound) : ∃ c cs, n.chars = c :: cs ∧ isJsonBlank c = false ∧ c ≠ ']' := by
    obtain ⟨c, cs, hcs, hc⟩ := h.chars_eq
    refine ⟨c, cs, hcs, isJsonBlank_eq_false hc, ?_⟩
    rintro rfl
    exact absurd hc (by decide)
  cases j with
  | null => exact ⟨'n', _, rfl, rfl, by decide⟩
  | bool b =>
    cases b with
    | true => exact ⟨'t', _, rfl, rfl, by decide⟩
    | false => exact ⟨'f', _, rfl, rfl, by decide⟩
  | number n =>
    cases n with
    | integer i =>
      show ∃ c cs, (toString i).toList = c :: cs ∧ _
      rw [toList_toString_int]
      exact hnumeral (sound_intNumeral i)
    | float x =>
      show ∃ c cs, (if x.isFinite then x.jsonText else "null").toList = c :: cs ∧ _
      split
      · rw [toList_jsonText]
        exact hnumeral (sound_decimalNumeral _ _ _)
      · exact ⟨'n', _, rfl, rfl, by decide⟩
  | string s => exact ⟨'"', _, String.toList_ofList, rfl, by decide⟩
  | array elements => exact ⟨'[', _, toList_compact_array elements, rfl, by decide⟩
  | object members => exact ⟨'\x7b', _, toList_compact_object members, rfl, by decide⟩

theorem listed_cons (text : String) (texts : List String) : ∃ tail, listed (text :: texts) = text.toList ++ tail := by
  cases texts with
  | nil => exact ⟨[], by rw [listed_singleton, List.append_nil]⟩
  | cons next texts => exact ⟨_, listed_cons_cons text next texts⟩

theorem toList_compactMember (name : String) (value : Json) :
    (compactMember ⟨name, value⟩).toList
      = '"' :: (name.toList.flatMap escapeJsonChar ++ '"' :: ':' :: value.compact.toList) := by
  rw [compactMember, String.toList_append, String.toList_append, jsonString, String.toList_ofList]
  simp

end Json

namespace Written

/-- behind the bracket of an array that is not empty stands its first element -/
theorem read_array (fuel : Nat) {c : Char} (hblank : isJsonBlank c = false) (hc : c ≠ ']') (cs : List Char) :
    read (fuel + 1) ('[' :: c :: cs)
      = (readElements fuel (c :: cs)).map fun (elements, rest) => (array elements, rest) := by
  rw [read, skipJsonBlanks_cons rfl]
  simp only [skipJsonBlanks_cons hblank]
  split
  · rename_i heq
    exact absurd (List.cons.inj heq).1 hc
  · rfl

/-- behind the brace of an object that is not empty stands the name of its first member -/
theorem read_object (fuel : Nat) (cs : List Char) :
    read (fuel + 1) ('\x7b' :: '"' :: cs)
      = (readMembers fuel ('"' :: cs)).map fun (members, rest) => (object members, rest) := rfl

section

variable {fuel : Nat} {cs rest : List Char} {value : Written}

theorem readMembers_comma (h : read fuel cs = some (value, ',' :: rest)) (name : List Char) :
    readMembers (fuel + 1) ('"' :: (name.flatMap escapeJsonChar ++ '"' :: ':' :: cs))
      = (readMembers fuel rest).map fun (members, rest) => (⟨name.map Char.toNat, value⟩ :: members, rest) := by
  have hquote := skipJsonBlanks_cons (c := '"') rfl (name.flatMap escapeJsonChar ++ '"' :: ':' :: cs)
  have hcolon := skipJsonBlanks_cons (c := ':') rfl cs
  have hcomma := skipJsonBlanks_cons (c := ',') rfl rest
  rw [readMembers]
  simp only [hquote, readUnits?_escaped, hcolon, h, hcomma]

theorem readMembers_brace (h : read fuel cs = some (value, '\x7d' :: rest)) (name : List Char) :
    readMembers (fuel + 1) ('"' :: (name.flatMap escapeJsonChar ++ '"' :: ':' :: cs))
      = some ([⟨name.map Char.toNat, value⟩], rest) := by
  have hquote := skipJsonBlanks_cons (c := '"') rfl (name.flatMap escapeJsonChar ++ '"' :: ':' :: cs)
  have hcolon := skipJsonBlanks_cons (c := ':') rfl cs
  have hbrace := skipJsonBlanks_cons (c := '\x7d') rfl rest
  rw [readMembers]
  simp only [hquote, readUnits?_escaped, hcolon, h, hbrace]

end

end Written

namespace Json

/-- With so much fuel the texts of values, of elements and of members are read back, if they are no longer than
that. -/
structure ReadsUpTo (fuel : Nat) : Prop where
  value : ∀ (j : Json) (rest : List Char), j.compact.toList.length ≤ fuel → EndsNumeral rest →
    Written.read fuel (j.compact.toList ++ rest) = some (j.written, rest)
  elements : ∀ (j : Json) (js : List Json) (rest : List Char),
    (listed (compactElements (j :: js))).length < fuel →
    Written.readElements fuel (listed (compactElements (j :: js)) ++ ']' :: rest)
      = some (writtenElements (j :: js), rest)
  members : ∀ (m : JsonMember) (ms : List JsonMember) (rest : List Char),
    (listed (compactMembers (m :: ms))).length < fuel →
    Written.readMembers fuel (listed (compactMembers (m :: ms)) ++ '\x7d' :: rest)
      = some (writtenMembers (m :: ms), rest)

namespace ReadsUpTo

variable {fuel : Nat}

theorem zero : ReadsUpTo 0 where
  value j rest hlength _ := by
    obtain ⟨c, cs, hcs, -⟩ := j.exists_compact_cons
    rw [hcs] at hlength
    exact absurd hlength (by simp)
  elements _ _ _ hlength := absurd hlength (Nat.not_lt_zero _)
  members _ _ _ hlength := absurd hlength (Nat.not_lt_zero _)

/-- one more unit of fuel reads the bracket of an array or an object -/
theorem value_succ (h : ReadsUpTo fuel) (j : Json) (rest : List Char)
    (hlength : j.compact.toList.length ≤ fuel + 1) (hrest : EndsNumeral rest) :
    Written.read (fuel + 1) (j.compact.toList ++ rest) = some (j.written, rest) := by
  cases j with
  | null => rfl
  | bool b => cases b <;> rfl
  | number n => exact Written.read_text fuel n hrest
  | string s => exact Written.read_string fuel s rest
  | array elements =>
    rw [toList_compact_array, List.cons_append, List.append_assoc]
    rw [toList_compact_array, List.length_cons, List.length_append, List.length_singleton] at hlength
    cases elements with
    | nil => rfl
    | cons j js =>
      obtain ⟨c, cs, hcs, hblank, hc⟩ := j.exists_compact_cons
      obtain ⟨tail, htail⟩ := listed_cons j.compact (compactElements js)
      have hfirst : listed (compactElements (j :: js)) = c :: (cs ++ tail) := by
        rw [compactElements, htail, hcs]
        rfl
      have helements := h.elements j js rest (by omega)
      show Written.read (fuel + 1) ('[' :: (listed (compactElements (j :: js)) ++ ']' :: rest)) = _
      rw [hfirst, List.cons_append] at helements ⊢
      rw [Written.read_array fuel hblank hc, helements]
      rfl
  | object members =>
    rw [toList_compact_object, List.cons_append, List.append_assoc]
    rw [toList_compact_object, List.length_cons, List.length_append, List.length_singleton] at hlength
    cases members with
    | nil => rfl
    | cons m ms =>
      obtain ⟨name, value⟩ := m
      obtain ⟨tail, htail⟩ := listed_cons (compactMember ⟨name, value⟩) (compactMembers ms)
      rw [toList_compactMember, List.cons_append] at htail
      have hmembers := h.members ⟨name, value⟩ ms rest (by omega)
      show Written.read (fuel + 1) ('\x7b' :: (listed (compactMembers (⟨name, value⟩ :: ms)) ++ '\x7d' :: rest)) = _
      rw [compactMembers, htail, List.cons_append] at hmembers ⊢
      rw [Written.read_object, hmembers]
      rfl

theorem elements_succ (h : ReadsUpTo fuel) (j : Json) (js : List Json) (rest : List Char)
    (hlength : (listed (compactElements (j :: js))).length < fuel + 1) :
    Written.readElements (fuel + 1) (listed (compactElements (j :: js)) ++ ']' :: rest)
      = some (writtenElements (j :: js), rest) := by
  cases js with
  | nil =>
    rw [compactElements, compactElements, listed_singleton] at hlength ⊢
    have hvalue := h.value j (']' :: rest) (by omega) (endsNumeral_cons (by decide) rest)
    rw [Written.readElements, hvalue]
    rfl
  | cons next js =>
    rw [compactElements, compactElements, listed_cons_cons] at hlength ⊢
    rw [List.length_append, List.length_cons] at hlength
    rw [List.append_assoc, List.cons_append]
    have hvalue := h.value j (',' :: (listed (next.compact :: compactElements js) ++ ']' :: rest)) (by omega)
      (endsNumeral_cons (by decide) _)
    have hmore := h.elements next js rest (by rw [compactElements]; omega)
    rw [compactElements] at hmore
    rw [Written.readElements, hvalue]
    show (Written.readElements fuel (listed (next.compact :: compactElements js) ++ ']' :: rest)).map _ = _
    rw [hmore]
    rfl

theorem members_succ (h : ReadsUpTo fuel) (m : JsonMember) (ms : List JsonMember) (rest : List Char)
    (hlength : (listed (compactMembers (m :: ms))).length < fuel + 1) :
    Written.readMembers (fuel + 1) (listed (compactMembers (m :: ms)) ++ '\x7d' :: rest)
      = some (writtenMembers (m :: ms), rest) := by
  obtain ⟨name, value⟩ := m
  have hshorter : value.compact.toList.length < (compactMember ⟨name, value⟩).toList.length := by
    rw [toList_compactMember]
    simp
    omega
  cases ms with
  | nil =>
    rw [compactMembers, compactMembers, listed_singleton] at hlength ⊢
    have hvalue := h.value value ('\x7d' :: rest) (by omega) (endsNumeral_cons (by decide) rest)
    rw [toList_compactMember, List.cons_append, List.append_assoc]
    exact Written.readMembers_brace hvalue name.toList
  | cons next ms =>
    rw [compactMembers, compactMembers, listed_cons_cons] at hlength ⊢
    rw [List.length_append, List.length_cons] at hlength
    have hvalue := h.value value (',' :: (listed (compactMember next :: compactMembers ms) ++ '\x7d' :: rest))
      (by omega) (endsNumeral_cons (by decide) _)
    have hmore := h.members next ms rest (by rw [compactMembers]; omega)
    rw [compactMembers] at hmore
    rw [List.append_assoc, toList_compactMember, List.cons_append, List.append_assoc]
    refine (Written.readMembers_comma hvalue name.toList).trans ?_
    rw [hmore]
    rfl

theorem succ (h : ReadsUpTo fuel) : ReadsUpTo (fuel + 1) := ⟨h.value_succ, h.elements_succ, h.members_succ⟩

end ReadsUpTo

theorem readsUpTo (fuel : Nat) : ReadsUpTo fuel := by
  induction fuel with
  | zero => exact .zero
  | succ fuel ih => exact ih.succ

/-- the compact text of a value is read as what was written -/
theorem parse?_compact (j : Json) : Written.parse? j.compact = some j.written := by
  have hread := (readsUpTo (2 * j.compact.toList.length + 2)).value j [] (by omega) endsNumeral_nil
  rw [List.append_nil] at hread
  unfold Written.parse?
  dsimp only
  rw [hread]
  rfl

end Json

end TableAlgebra
