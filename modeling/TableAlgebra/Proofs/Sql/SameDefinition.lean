import TableAlgebra.Proofs.Sql.Column
import TableAlgebra.Proofs.Sql.Readability
import TableAlgebra.Proofs.Text.LowerCase

/-!
# Definitions of tables in lower case

Definitions of tables are compared in lower case.  The lower-case form of the statement that creates a table is
a statement of the same form: names and strings are mapped, and nothing else in it has a capital.  Read as
tokens, it gives the definitions of the columns back, so that two tables whose statements agree in lower case
have the same columns, letter case in names and in string defaults aside.

* `Attribute.SameDefinition`           two columns are defined alike, letter case in their names aside;
* `lowercase_createText`               the lower-case form of a statement that creates a table;
* `definition_cancel`                  definitions of columns are told from each other by their tokens;
* `forall₂_sameDefinition`             tables whose statements agree in lower case have the same columns.
-/

namespace TableAlgebra

/-! ## columns that are defined alike -/

/-- literals of the same text, or strings that differ in letter case only -/
def Literal.SameIgnoringCase (l m : Literal) : Prop :=
  (∀ d, l.sqlText d = m.sqlText d) ∨ ∃ s t, l = .string s ∧ m = .string t ∧ lowercase s = lowercase t

/-- The columns are defined alike in SQLite: under the same name up to letter case, with the same type, key and
marks, and with no default, or defaults that are the same. -/
structure Attribute.SameDefinition (same : Literal → Literal → Prop) (a b : Attribute) : Prop where
  name : lowercase a.name = lowercase b.name
  type : Dialect.sqlite.columnType a = Dialect.sqlite.columnType b
  key : Dialect.sqlite.keyConstraint? a = Dialect.sqlite.keyConstraint? b
  unique : a.qualifiers.unique = b.qualifiers.unique
  notNull : a.qualifiers.notNull = b.qualifiers.notNull
  default : Option.Rel same a.defaultLiteral? b.defaultLiteral?

/-! ## the parts of a definition -/

def keyText (a : Attribute) : String :=
  markText (a.qualifiers.autoIncrement || a.qualifiers.primaryKey) " primary key"
    ++ markText a.qualifiers.autoIncrement " autoincrement"

theorem definitionHead_sqlite (a : Attribute) : definitionHead .sqlite a =
    a.name ++ (" " ++ Dialect.sqlite.columnType a) ++ keyText a ++ markText a.qualifiers.unique " unique"
      ++ markText a.qualifiers.notNull " not null" :=
  definitionHead_eq .sqlite a

/-! ## lower case -/

open LetterCase in
/-- the text has no capital and does not go on with a word -/
def trails (part : String) : Bool :=
  part.toList.all (fun c => c.toNat < 0x80 && c.toLower == c) && part.toList.head?.all fun c => decide (Bar c)

theorem lowercase_append_trailing {part : String} (h : trails part = true) (text : String) :
    lowercase (text ++ part) = lowercase text ++ part := by
  simp only [trails, Bool.and_eq_true, List.all_eq_true, decide_eq_true_eq, beq_iff_eq] at h
  obtain ⟨hlow, hbar⟩ := h
  cases hpart : part.toList with
  | nil =>
    rw [String.toList_eq_nil_iff.mp hpart, String.append_empty, String.append_empty]
  | cons c cs =>
    rw [hpart] at hbar
    rw [lowercase_append_of_begins hpart (of_decide_eq_true hbar), lowercase_of_lower hlow]

theorem trails_markText {part : String} (h : trails part = true) (c : Bool) :
    trails (markText c part) = true := by
  cases c with
  | true => exact h
  | false => rfl

theorem trails_columnType (a : Attribute) : trails (" " ++ Dialect.sqlite.columnType a) = true := by
  show trails (" " ++ a.type.underlying.affinity) = true
  cases a.type.underlying with
  | enum labels => exact (by decide +kernel : trails (" " ++ "text") = true)
  | _ => decide +kernel

def Attribute.lowered (a : Attribute) : Attribute := { a with name := lowercase a.name }

theorem lowercase_append_keyText (a : Attribute) (text : String) :
    lowercase (text ++ keyText a) = lowercase text ++ keyText a := by
  have hkey : trails " primary key" = true := by decide +kernel
  have hauto : trails " autoincrement" = true := by decide +kernel
  rw [keyText, ← String.append_assoc, lowercase_append_trailing (trails_markText hauto _),
    lowercase_append_trailing (trails_markText hkey _), String.append_assoc]

theorem lowercase_definitionHead (a : Attribute) :
    lowercase (definitionHead .sqlite a) = definitionHead .sqlite a.lowered := by
  have hunique : trails " unique" = true := by decide +kernel
  have hnull : trails " not null" = true := by decide +kernel
  have hlowered : definitionHead .sqlite a.lowered = lowercase a.name
      ++ (" " ++ Dialect.sqlite.columnType a) ++ keyText a ++ markText a.qualifiers.unique " unique"
      ++ markText a.qualifiers.notNull " not null" := definitionHead_sqlite a.lowered
  rw [hlowered, definitionHead_sqlite, lowercase_append_trailing (trails_markText hnull _),
    lowercase_append_trailing (trails_markText hunique _), lowercase_append_keyText,
    lowercase_append_trailing (trails_columnType a)]

/-- the literal with its string, or the label that it is, in lower case -/
def Literal.lowered : Literal → Literal
  | string s => .string (lowercase s)
  | label v => .string (lowercase v.label)
  | l => l

theorem Literal.Legible.lowered {l : Literal} (h : l.Legible) : l.lowered.Legible := by
  cases l with
  | string s => exact nofun
  | label v => exact nofun
  | boolean b => exact h
  | integer i => exact h
  | number x => exact h

theorem lowercase_numeral {text : String} (h : IsNumeral text) :
    lowercase text = text ∧ lowercase ("-" ++ text) = "-" ++ text := by
  have hlow : ∀ n : Fin 128, isDigit (Char.ofNat n) = true → (Char.ofNat n).toLower = Char.ofNat n := by
    decide +kernel
  have hdigit {c : Char} (hc : isDigit c = true) : c.toNat < 0x80 ∧ c.toLower = c := by
    have hascii := isIdentifierPart_ascii (isIdentifierPart_of_digit hc)
    exact ⟨hascii, LetterCase.forall_ascii (p := fun c => isDigit c = true → c.toLower = c) hlow hascii hc⟩
  have htext : ∀ c ∈ text.toList, c.toNat < 0x80 ∧ c.toLower = c := by
    obtain ⟨c, cs, heq, hc, hcs⟩ := h.toList_eq
    rw [heq]
    intro d hd
    rcases List.mem_cons.mp hd with rfl | hd
    · exact hdigit hc
    · rcases hcs d hd with hd | rfl
      · exact hdigit hd
      · decide
  refine ⟨lowercase_of_lower htext, lowercase_of_lower fun c hc => ?_⟩
  rw [String.toList_append] at hc
  rcases List.mem_append.mp hc with hc | hc
  · rw [List.mem_singleton.mp hc]
    decide
  · exact htext c hc

theorem Literal.lowercase_sqlText {l : Literal} (h : l.Legible) (d : Dialect) :
    lowercase (l.sqlText d) = l.lowered.sqlText d := by
  cases l with
  | boolean b =>
    show lowercase (d.booleanLiteral b) = d.booleanLiteral b
    rw [d.booleanLiteral_eq]
    exact (lowercase_numeral (isNumeral_truth b)).1
  | integer i =>
    show lowercase (toString i.toInt) = toString i.toInt
    cases i.toInt with
    | ofNat n => exact (lowercase_numeral (isNumeral_toString n)).1
    | negSucc n => exact (lowercase_numeral (isNumeral_toString (n + 1))).2
  | number x =>
    obtain ⟨digits, hdigits, htext⟩ := Binary64.text_of_finite (h x rfl)
    show lowercase x.text = x.text
    rw [htext]
    unfold Binary64.signText
    split
    · exact (lowercase_numeral hdigits).2
    · rw [String.empty_append]
      exact (lowercase_numeral hdigits).1
  | string s => exact lowercase_quote s
  | label v => exact lowercase_quote v.label

theorem lowercase_intercalate (texts : List String) :
    lowercase (", ".intercalate texts) = ", ".intercalate (texts.map lowercase) := by
  have hspace : ", ".toList = [','] ++ [' '] := rfl
  have hcomma (rest : String) : (", " ++ rest).toList = ',' :: ' ' :: rest.toList := String.toList_append
  induction texts with
  | nil => rfl
  | cons text texts ih =>
    cases texts with
    | nil => rw [List.map_cons, List.map_nil, String.intercalate_singleton, String.intercalate_singleton]
    | cons next texts =>
      rw [List.map_cons] at ih
      rw [List.map_cons, List.map_cons, String.intercalate_cons_cons, String.intercalate_cons_cons, ← ih,
        String.append_assoc, String.append_assoc,
        lowercase_append_of_begins (hcomma _) (by decide +kernel),
        lowercase_append_of_ends hspace (by decide +kernel)]
      rfl

/-- the statement that creates a table is in lower case a statement that creates one -/
theorem lowercase_createText (name : String) (definitions : List String) :
    lowercase (createText name definitions) = createText (lowercase name) (definitions.map lowercase) := by
  have hopen : trails " (" = true := by decide +kernel
  have hclose : trails ")" = true := by decide +kernel
  have hbegin : "create table ".toList = "create table".toList ++ [' '] := rfl
  have hend (text : String) : (text ++ " (").toList = (text ++ " ").toList ++ ['('] := by
    rw [String.toList_append, String.toList_append]
    exact (List.append_assoc text.toList [' '] ['(']).symm
  have hcreate : lowercase "create table " = "create table " := lowercase_ofList_of_lower (by simp)
  unfold createText
  rw [lowercase_append_trailing hclose, lowercase_append_of_ends (hend _) (by decide +kernel),
    lowercase_append_trailing hopen, lowercase_append_of_ends hbegin (by decide +kernel), hcreate,
    lowercase_intercalate]

theorem lowercase_definition (a : Attribute) {default : Option Literal}
    (hdefault : ∀ l, default = some l → l.Legible) :
    lowercase (definitionHead .sqlite a ++ defaultPart .sqlite default)
      = definitionHead .sqlite a.lowered ++ defaultPart .sqlite (default.map Literal.lowered) := by
  cases default with
  | none =>
    show lowercase (_ ++ "") = _ ++ ""
    rw [String.append_empty, String.append_empty, lowercase_definitionHead]
  | some l =>
    have hbegin : (" default " ++ l.sqlText .sqlite).toList
        = ' ' :: ("default ".toList ++ (l.sqlText .sqlite).toList) :=
      String.toList_append
    have hend : " default ".toList = " default".toList ++ [' '] := rfl
    have hword : lowercase " default " = " default " := lowercase_ofList_of_lower (by simp)
    show lowercase (_ ++ (" default " ++ l.sqlText .sqlite)) = _ ++ (" default " ++ l.lowered.sqlText .sqlite)
    rw [lowercase_append_of_begins hbegin (by decide +kernel), lowercase_definitionHead,
      lowercase_append_of_ends hend (by decide +kernel), hword, Literal.lowercase_sqlText (hdefault l rfl)]

/-! ## the tokens of a definition -/

/-- the tokens of the definition of a column with its default -/
def definitionTokens (c : Attribute × Option Literal) : List Token :=
  .word c.1.name :: .word (Dialect.sqlite.columnType c.1) ::
    (markTokens (c.1.qualifiers.autoIncrement || c.1.qualifiers.primaryKey) (.word "primary") [.word "key"]
      ++ (markTokens c.1.qualifiers.autoIncrement (.word "autoincrement") []
        ++ (markTokens c.1.qualifiers.unique (.word "unique") []
          ++ (markTokens c.1.qualifiers.notNull (.word "not") [.word "null"] ++ defaultTokens c.2))))

theorem reads_definition {a : Attribute} (ha : isIdentifier a.name = true) {default : Option Literal}
    (hdefault : ∀ l, default = some l → l.Legible) :
    Reads (definitionHead .sqlite a ++ defaultPart .sqlite default) (definitionTokens (a, default)) :=
  reads_column .sqlite ha hdefault

/-! ## reading a definition -/

theorem avoids_mark {excluded : List Token} {keyword : Token} {r : List Token} (h : keyword ∉ excluded)
    (hr : Avoids excluded r) (c : Bool) (more : List Token) :
    Avoids excluded (markTokens c keyword more ++ r) := by
  cases c with
  | true => exact avoids_cons h
  | false => exact hr

theorem mark_cancel {c c' : Bool} {keyword : Token} {more r s : List Token}
    (hr : Avoids [keyword] r) (hs : Avoids [keyword] s)
    (h : markTokens c keyword more ++ r = markTokens c' keyword more ++ s) : c = c' ∧ r = s := by
  cases c with
  | true =>
    cases c' with
    | true => exact ⟨rfl, List.append_cancel_left h⟩
    | false =>
      have hs' : keyword :: (more ++ r) = s := h
      rw [← hs'] at hs
      exact absurd List.mem_cons_self hs.not_mem
  | false =>
    cases c' with
    | true =>
      have hr' : r = keyword :: (more ++ s) := h
      rw [hr'] at hr
      exact absurd List.mem_cons_self hr.not_mem
    | false => exact ⟨rfl, h⟩

theorem default_cancel {m n : Option Literal} {r s : List Token}
    (hr : Avoids [.word "default"] r) (hs : Avoids [.word "default"] s)
    (h : defaultTokens m ++ r = defaultTokens n ++ s) :
    Option.Rel (fun l k => slotTokens l.slots = slotTokens k.slots) m n ∧ r = s := by
  cases m with
  | none =>
    cases n with
    | none => exact ⟨.none, h⟩
    | some k =>
      have hr' : r = .word "default" :: (slotTokens k.slots ++ s) := h
      rw [hr'] at hr
      exact absurd List.mem_cons_self hr.not_mem
  | some l =>
    cases n with
    | none =>
      have hs' : .word "default" :: (slotTokens l.slots ++ r) = s := h
      rw [← hs'] at hs
      exact absurd List.mem_cons_self hs.not_mem
    | some k =>
      have hrest : slotTokens l.slots ++ r = slotTokens k.slots ++ s := (List.cons.inj h).2
      obtain ⟨-, rfl⟩ := Literal.tokens_cancel hrest
      exact ⟨.some (List.append_cancel_right hrest), rfl⟩

/-- the words that go on with a definition -/
def definitionWords : List Token :=
  [.word "primary", .word "autoincrement", .word "unique", .word "not", .word "default"]

structure WrittenAlike (c d : Attribute × Option Literal) : Prop where
  name : c.1.name = d.1.name
  type : Dialect.sqlite.columnType c.1 = Dialect.sqlite.columnType d.1
  key : Dialect.sqlite.keyConstraint? c.1 = Dialect.sqlite.keyConstraint? d.1
  unique : c.1.qualifiers.unique = d.1.qualifiers.unique
  notNull : c.1.qualifiers.notNull = d.1.qualifiers.notNull
  default : Option.Rel (fun l m => slotTokens l.slots = slotTokens m.slots) c.2 d.2

/-- definitions of columns are told from each other, and cut off from what does not go on with them -/
theorem definition_cancel (cs ds : List (Attribute × Option Literal)) :
    Cancels definitionWords WrittenAlike definitionTokens definitionTokens cs ds := by
  intro c _ d _ r s hr hs h
  -- what follows a part begins with a later word, or not with one of these at all
  have hdefault {keyword : Token} (hword : keyword ∈ definitionWords) (hne : .word "default" ∉ [keyword])
      {ts : List Token} (hts : Avoids definitionWords ts) (m : Option Literal) :
      Avoids [keyword] (defaultTokens m ++ ts) := by
    cases m with
    | some l => exact avoids_cons hne
    | none => exact hts.mono fun t ht => List.mem_singleton.mp ht ▸ hword
  have hlast {ts : List Token} (hts : Avoids definitionWords ts) : Avoids [.word "default"] ts :=
    hts.mono fun t ht => List.mem_singleton.mp ht ▸ by decide
  simp only [definitionTokens, List.cons_append, List.append_assoc, List.cons.injEq, Token.word.injEq] at h
  obtain ⟨hname, htype, h⟩ := h
  obtain ⟨hkeyed, h⟩ := mark_cancel
    (avoids_mark (by decide) (avoids_mark (by decide) (avoids_mark (by decide)
      (hdefault (by decide) (by decide) hr c.2) _ _) _ _) _ _)
    (avoids_mark (by decide) (avoids_mark (by decide) (avoids_mark (by decide)
      (hdefault (by decide) (by decide) hs d.2) _ _) _ _) _ _) h
  obtain ⟨hauto, h⟩ := mark_cancel
    (avoids_mark (by decide) (avoids_mark (by decide) (hdefault (by decide) (by decide) hr c.2) _ _) _ _)
    (avoids_mark (by decide) (avoids_mark (by decide) (hdefault (by decide) (by decide) hs d.2) _ _) _ _) h
  obtain ⟨hunique, h⟩ := mark_cancel
    (avoids_mark (by decide) (hdefault (by decide) (by decide) hr c.2) _ _)
    (avoids_mark (by decide) (hdefault (by decide) (by decide) hs d.2) _ _) h
  obtain ⟨hnull, h⟩ := mark_cancel (hdefault (by decide) (by decide) hr c.2)
    (hdefault (by decide) (by decide) hs d.2) h
  obtain ⟨hrel, rfl⟩ := default_cancel (hlast hr) (hlast hs) h
  refine ⟨⟨hname, htype, ?_, hunique, hnull, hrel⟩, rfl⟩
  unfold Dialect.keyConstraint?
  rw [hauto]
  cases hd : d.1.qualifiers.autoIncrement with
  | true => rfl
  | false =>
    rw [hauto, hd, Bool.false_or, Bool.false_or] at hkeyed
    rw [hkeyed]

/-! ## literals in lower case -/

theorem Literal.ne_label_of_value {value : Value} {l : Literal} (h : value.toLiteral = .ok l)
    (v : EnumValue) : l ≠ .label v := by
  rintro rfl
  cases value with
  | float x =>
    unfold Value.toLiteral at h
    cases hx : x.isFinite <;> cases hi : x.toInt64? <;> simp [hx, hi] at h
  | bool b => exact nomatch h
  | int i => exact nomatch h
  | string s => exact nomatch h

theorem numeralSlots_ne_string (text u : String) : slotTokens (numeralSlots text) ≠ [.string u] := by
  unfold numeralSlots
  split <;> simp [slotTokens, Slot.fill, Slot.symbol]

theorem Literal.lowered_cases {l : Literal} (h : ∀ v, l ≠ .label v) :
    (∃ s, l = .string s) ∨ l.lowered = l ∧ ∀ u, slotTokens l.slots ≠ [.string u] := by
  cases l with
  | boolean b => exact .inr ⟨rfl, fun u => by simp [slots, slotTokens, Slot.fill]⟩
  | integer i => exact .inr ⟨rfl, numeralSlots_ne_string _⟩
  | number x => exact .inr ⟨rfl, numeralSlots_ne_string _⟩
  | string s => exact .inl ⟨s, rfl⟩
  | label v => exact absurd rfl (h v)

theorem Literal.sameIgnoringCase {l m : Literal} (hl : ∀ v, l ≠ .label v) (hm : ∀ v, m ≠ .label v)
    (h : slotTokens l.lowered.slots = slotTokens m.lowered.slots) : l.SameIgnoringCase m := by
  rcases lowered_cases hl with ⟨s, rfl⟩ | ⟨hsame, hstring⟩
  · rcases lowered_cases hm with ⟨t, rfl⟩ | ⟨hsame, hstring⟩
    · have htext : lowercase s = lowercase t := Token.string.inj (List.cons.inj h).1
      exact .inr ⟨s, t, rfl, rfl, htext⟩
    · rw [hsame] at h
      exact absurd h.symm (hstring _)
  · rcases lowered_cases hm with ⟨t, rfl⟩ | ⟨hsame', -⟩
    · rw [hsame] at h
      exact absurd h (hstring _)
    · rw [hsame, hsame'] at h
      have htokens : slotTokens l.slots ++ [] = slotTokens m.slots ++ [] := by rw [h]
      exact .inl (tokens_cancel htokens).1

/-! ## tables -/

def Attribute.loweredItem (a : Attribute) : Attribute × Option Literal :=
  (a.lowered, a.defaultLiteral?.map Literal.lowered)

theorem Attribute.sameDefinition {a b : Attribute} (h : WrittenAlike a.loweredItem b.loweredItem) :
    a.SameDefinition Literal.SameIgnoringCase b where
  name := h.name
  type := h.type
  key := h.key
  unique := h.unique
  notNull := h.notNull
  default := by
    have hrel : Option.Rel (fun l m => slotTokens l.slots = slotTokens m.slots)
        (a.defaultLiteral?.map Literal.lowered) (b.defaultLiteral?.map Literal.lowered) := h.default
    cases ha : a.defaultLiteral? with
    | none =>
      cases hb : b.defaultLiteral? with
      | none => exact .none
      | some m =>
        rw [ha, hb] at hrel
        exact nomatch hrel
    | some l =>
      cases hb : b.defaultLiteral? with
      | none =>
        rw [ha, hb] at hrel
        exact nomatch hrel
      | some m =>
        rw [ha, hb] at hrel
        obtain ⟨value, hl⟩ := defaultLiteral_eq ha
        obtain ⟨other, hm⟩ := defaultLiteral_eq hb
        cases hrel with
        | some htokens =>
          exact .some (Literal.sameIgnoringCase (Literal.ne_label_of_value hl)
            (Literal.ne_label_of_value hm) htokens)

/-- the statement that creates a declared table, in lower case, is read as the definitions of its columns -/
theorem TableDeclaration.reads_lowercase_create {c : TableDeclaration} {t : Relation} {create : Statement}
    (declared : ∀ a ∈ c.attributes, a.Declared) (made : c.run = .ok t)
    (compiled : createStatement .sqlite t = .ok create) :
    Reads (lowercase create.sql) (.word "create" :: .word "table" :: .word (lowercase c.name) :: .symbol "("
      :: ([Token.symbol ","].intercalate ((t.attributes.map Attribute.loweredItem).map definitionTokens)
        ++ [Token.symbol ")"])) := by
  obtain ⟨name, definitions, hname, hdefinitions, rfl⟩ := createStatement_eq_ok.mp compiled
  obtain ⟨hid, -⟩ := Relation.table_eq_ok.mp made
  obtain rfl : c.name = name := Option.some.inj ((c.name?_of_run made).symm.trans hname)
  have hdeclared : ∀ a ∈ t.attributes, isIdentifier a.name = true := by
    rw [c.attributes_of_run made]
    intro a ha
    obtain ⟨b, hb, rfl⟩ := List.mem_map.mp ha
    exact (declared b hb).isIdentifier_name
  have hreads {a : Attribute} (ha : isIdentifier a.name = true) {text : String}
      (htext : definitionText .sqlite a = .ok text) :
      Reads (lowercase text) (definitionTokens a.loweredItem) := by
    have hlegible (l : Literal) (hl : a.defaultLiteral? = some l) : l.Legible := by
      obtain ⟨value, hvalue⟩ := Attribute.defaultLiteral_eq hl
      exact (Literal.Made.value hvalue).legible
    have hlowered (l : Literal) (hl : a.defaultLiteral?.map Literal.lowered = some l) : l.Legible := by
      obtain ⟨m, hm, rfl⟩ := Option.map_eq_some_iff.mp hl
      exact (hlegible m hm).lowered
    rw [definitionText_eq_parts htext, lowercase_definition a hlegible]
    have hname : isIdentifier a.lowered.name = true := isIdentifier_lowercase ha
    exact reads_definition hname hlowered
  have hboth := (List.forall₂_and_left _ _).mpr ⟨hdeclared, mapM_eq_ok.mp hdefinitions⟩
  have htexts : List.Forall₂ Reads (definitions.map lowercase)
      ((t.attributes.map Attribute.loweredItem).map definitionTokens) := by
    rw [List.map_map, List.forall₂_map_left_iff, List.forall₂_map_right_iff]
    exact (hboth.imp fun a text h => hreads h.1 h.2).flip
  rw [lowercase_createText]
  exact reads_createText (isIdentifier_lowercase hid) htexts

/-- **Tables whose statements agree in lower case have the same columns**, letter case in names and in string
defaults aside. -/
theorem forall₂_sameDefinition {c d : TableDeclaration} {t u : Relation} {create other : Statement}
    (hc : ∀ a ∈ c.attributes, a.Declared) (hd : ∀ a ∈ d.attributes, a.Declared)
    (ht : c.run = .ok t) (hu : d.run = .ok u) (hcreate : createStatement .sqlite t = .ok create)
    (hother : createStatement .sqlite u = .ok other) (h : lowercase create.sql = lowercase other.sql) :
    List.Forall₂ (Attribute.SameDefinition Literal.SameIgnoringCase) t.attributes u.attributes := by
  have hne {e : TableDeclaration} {v : Relation} (hv : e.run = .ok v) :
      v.attributes.map Attribute.loweredItem ≠ [] := by
    obtain ⟨-, -, hattributes, -⟩ := Relation.table_eq_ok.mp hv
    rw [e.attributes_of_run hv]
    simpa [TableDeclaration.bound] using hattributes
  have htokens := (c.reads_lowercase_create hc ht hcreate).lex_eq
  rw [h, (d.reads_lowercase_create hd hu hother).lex_eq] at htokens
  simp only [Option.some.injEq, List.cons.injEq, true_and] at htokens
  have hclosed : Avoids (.symbol "," :: definitionWords) [.symbol ")"] := avoids_cons (by decide)
  obtain ⟨hitems, -⟩ := intercalate_cancel (by decide) (hne ht) (hne hu) (definition_cancel _ _) hclosed
    hclosed htokens.2.symm
  rw [List.forall₂_map_left_iff, List.forall₂_map_right_iff] at hitems
  exact hitems.imp fun a b => Attribute.sameDefinition

end TableAlgebra
