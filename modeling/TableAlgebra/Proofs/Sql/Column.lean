import TableAlgebra.Proofs.Sql.Definition

/-!
# The definition of a column, part by part

The definition of a column is its name and its type, followed by parts that it has or not: a key, uniqueness, a
null ban and a default.  The lexer reads each part as tokens that begin with a keyword of its own.

* `markText`, `markTokens`       a part, and its tokens;
* `columnTokens`                 the tokens of a definition in a dialect;
* `reads_column`                 a definition is read as them;
* `definitionsOf`                the definitions in a text that creates a table;
* `definitionsOf_create`         those of a declared table are its columns, in order.
-/

namespace TableAlgebra

/-! ## texts -/

def Attribute.defaultLiteral? (a : Attribute) : Option Literal :=
  a.qualifiers.default.bind fun value => value.toLiteral.toOption

theorem Attribute.defaultLiteral_eq {a : Attribute} {l : Literal} (h : a.defaultLiteral? = some l) :
    ∃ value : Value, value.toLiteral = .ok l := by
  obtain ⟨value, -, hvalue⟩ := Option.bind_eq_some_iff.mp h
  cases hl : value.toLiteral with
  | error e => simp [hl, Except.toOption] at hvalue
  | ok m =>
    rw [hl] at hvalue
    exact ⟨value, Option.some.inj hvalue ▸ hl⟩

/-- a part that a definition has or not -/
def markText (c : Bool) (part : String) : String := if c then part else ""

/-- the default of a column in its definition -/
def defaultPart (d : Dialect) : Option Literal → String
  | some l => " default " ++ l.sqlText d
  | none => ""

theorem definitionText_eq_parts {d : Dialect} {a : Attribute} {text : String}
    (h : definitionText d a = .ok text) : text = definitionHead d a ++ defaultPart d a.defaultLiteral? := by
  rcases definitionText_eq_ok.mp h with ⟨hnone, rfl⟩ | ⟨value, l, hsome, hl, rfl⟩
  · rw [Attribute.defaultLiteral?, hnone]
    exact String.append_empty.symm
  · rw [Attribute.defaultLiteral?, hsome, Option.bind_some, hl]
    rfl

/-- the column is numbered by its key -/
def Dialect.numbers (d : Dialect) (a : Attribute) : Bool := d == .sqlite && a.qualifiers.autoIncrement

def Dialect.keys (d : Dialect) (a : Attribute) : Bool := d.numbers a || a.qualifiers.primaryKey

theorem definitionHead_eq (d : Dialect) (a : Attribute) : definitionHead d a =
    a.name ++ (" " ++ d.columnType a)
      ++ (markText (d.keys a) " primary key" ++ markText (d.numbers a) " autoincrement")
      ++ markText a.qualifiers.unique " unique" ++ markText a.qualifiers.notNull " not null" := by
  have hname : a.name ++ " " ++ d.columnType a = a.name ++ (" " ++ d.columnType a) := String.append_assoc
  unfold definitionHead Dialect.keys Dialect.numbers Dialect.keyConstraint?
  rw [hname]
  cases d <;> cases a.qualifiers.autoIncrement <;> cases a.qualifiers.primaryKey <;> rfl

/-! ## tokens -/

/-- the tokens of a part that a definition has or not -/
def markTokens (c : Bool) (keyword : Token) (more : List Token) : List Token :=
  if c then keyword :: more else []

def defaultTokens : Option Literal → List Token
  | some l => .word "default" :: slotTokens l.slots
  | none => []

def columnTokens (d : Dialect) (a : Attribute) (default : Option Literal) : List Token :=
  .word a.name :: .word (d.columnType a) ::
    (markTokens (d.keys a) (.word "primary") [.word "key"]
      ++ (markTokens (d.numbers a) (.word "autoincrement") []
        ++ (markTokens a.qualifiers.unique (.word "unique") []
          ++ (markTokens a.qualifiers.notNull (.word "not") [.word "null"] ++ defaultTokens default))))

theorem Reads.append_mark {text part : String} {tokens more : List Token} {keyword : Token}
    (h : Reads text tokens) (hpart : Ends part (keyword :: more)) (c : Bool) :
    Reads (text ++ markText c part) (tokens ++ markTokens c keyword more) := by
  cases c with
  | true => exact h.append hpart
  | false =>
    show Reads (text ++ "") (tokens ++ [])
    rwa [String.append_empty, List.append_nil]

theorem Reads.append_default {text : String} {tokens : List Token} (h : Reads text tokens) (d : Dialect)
    {default : Option Literal} (hdefault : ∀ l, default = some l → l.Legible) :
    Reads (text ++ defaultPart d default) (tokens ++ defaultTokens default) := by
  cases default with
  | none =>
    show Reads (text ++ "") (tokens ++ [])
    rwa [String.append_empty, List.append_nil]
  | some l =>
    have hword : Separates " default " [.word "default"] := .of_fixed rfl rfl rfl
    exact h.append (hword.append (Literal.reads_sqlText d (hdefault l rfl)))

theorem reads_column (d : Dialect) {a : Attribute} (ha : isIdentifier a.name = true) {default : Option Literal}
    (hdefault : ∀ l, default = some l → l.Legible) :
    Reads (definitionHead d a ++ defaultPart d default) (columnTokens d a default) := by
  have hblank : Separates " " [] := .of_fixed rfl rfl rfl
  have htype : Ends (" " ++ d.columnType a) [.word (d.columnType a)] :=
    hblank.append (reads_word (isIdentifier_columnType d a))
  have hkey : Ends " primary key" ([.word "primary"] ++ [.word "key"]) :=
    .of_fixed (closes_word _) rfl rfl rfl
  have hauto : Ends " autoincrement" ([] ++ [.word "autoincrement"]) := .of_fixed (closes_word _) rfl rfl rfl
  have hunique : Ends " unique" ([] ++ [.word "unique"]) := .of_fixed (closes_word _) rfl rfl rfl
  have hnull : Ends " not null" ([.word "not"] ++ [.word "null"]) := .of_fixed (closes_word _) rfl rfl rfl
  rw [List.cons_append, List.nil_append] at hkey hnull
  rw [List.nil_append] at hauto hunique
  have htyped := (reads_word ha).append htype
  have hkeyed := (htyped.append_mark hkey (d.keys a)).append_mark hauto (d.numbers a)
  have hread := ((hkeyed.append_mark hunique a.qualifiers.unique).append_mark hnull
    a.qualifiers.notNull).append_default d hdefault
  rw [definitionHead_eq]
  simpa only [columnTokens, String.append_assoc, List.append_assoc, List.cons_append,
    List.nil_append] using hread

theorem mem_markTokens {t keyword : Token} {c : Bool} {more : List Token} :
    t ∈ markTokens c keyword more ↔ c = true ∧ (t = keyword ∨ t ∈ more) := by
  cases c <;> simp [markTokens]

theorem comma_not_mem_columnTokens (d : Dialect) (a : Attribute) (default : Option Literal) :
    Token.symbol "," ∉ columnTokens d a default := by
  have hdefault : Token.symbol "," ∉ defaultTokens default := by
    cases default with
    | none => exact List.not_mem_nil
    | some l => simpa [defaultTokens] using l.comma_not_mem_tokens
  simp [columnTokens, mem_markTokens, hdefault]

/-! ## tables -/

/-- the definitions of columns in a text that creates a table, token by token -/
def definitionsOf (text : String) : List (List Token) :=
  match lex text with
  | some (_ :: _ :: _ :: _ :: tokens) => tokens.dropLast.splitOn (.symbol ",")
  | _ => []

theorem definitionsOf_create {d : Dialect} {c : TableDeclaration} {t : Relation} {s : Statement}
    (hc : ∀ a ∈ c.attributes, a.Declared) (ht : c.run = .ok t) (hs : createStatement d t = .ok s) :
    definitionsOf s.sql = c.bound.map fun a => columnTokens d a a.defaultLiteral? := by
  obtain ⟨name, definitions, hname, hdefinitions, rfl⟩ := createStatement_eq_ok.mp hs
  obtain ⟨hid, -, hne, -⟩ := Relation.table_eq_ok.mp ht
  obtain rfl : c.name = name := Option.some.inj ((c.name?_of_run ht).symm.trans hname)
  rw [c.attributes_of_run ht] at hdefinitions
  have hsound : c.Sound := ⟨hid, hc⟩
  have hreads {a : Attribute} (ha : a ∈ c.bound) {text : String} (htext : definitionText d a = .ok text) :
      Reads text (columnTokens d a a.defaultLiteral?) := by
    rw [definitionText_eq_parts htext]
    refine reads_column d (hsound.legible ha).1 fun l hl => ?_
    obtain ⟨value, hvalue⟩ := Attribute.defaultLiteral_eq hl
    exact (Literal.Made.value hvalue).legible
  have htexts : List.Forall₂ Reads definitions (c.bound.map fun a => columnTokens d a a.defaultLiteral?) := by
    rw [List.forall₂_map_right_iff]
    have hboth := (List.forall₂_and_left _ _).mpr ⟨fun a ha => ha, mapM_eq_ok.mp hdefinitions⟩
    exact (hboth.imp fun a text h => hreads h.1 h.2).flip
  have hcommas : ∀ ts ∈ c.bound.map fun a => columnTokens d a a.defaultLiteral?, Token.symbol "," ∉ ts := by
    intro ts hts
    obtain ⟨a, -, rfl⟩ := List.mem_map.mp hts
    exact comma_not_mem_columnTokens d a _
  unfold definitionsOf
  rw [(reads_createText hid htexts).lex_eq]
  show (([Token.symbol ","].intercalate _) ++ [Token.symbol ")"]).dropLast.splitOn (Token.symbol ",") = _
  rw [List.dropLast_concat, List.splitOn_intercalate _ hcommas]
  simpa [TableDeclaration.bound] using hne

end TableAlgebra
