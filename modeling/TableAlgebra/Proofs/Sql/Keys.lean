import Mathlib.Data.List.Infix
import TableAlgebra.Proofs.Sql.Column
import TableAlgebra.Proofs.Sql.Readability

/-!
# Keys in the definition of a table

A column whose values determine their rows is one that is numbered, a primary key or unique.  The definition of
the column says so where it is a primary key or unique.  A numbered column is a primary key in SQLite; in
PostgreSQL it has a type that numbers it, and no constraint of its own.

* `isKeyed`, `isDistinct`        a definition makes its column a primary key, or unique;
* `Attribute.Enforced`           what a definition says of the values of its column;
* `TableDeclaration.keys_created`       the definitions of a declared table;
* `TableDeclaration.not_keys_created`   there may be two primary keys, and a numbered column without a constraint.
-/

namespace TableAlgebra

/-! ## definitions -/

/-- the definition makes its column a primary key; its options follow its name and its type -/
def isKeyed (definition : List Token) : Bool :=
  decide ([Token.word "primary", Token.word "key"] <:+: definition.drop 2)

/-- the definition makes its column unique -/
def isDistinct (definition : List Token) : Bool := (definition.drop 2).contains (.word "unique")

/-- The definition has the name of the attribute, makes it a primary key if the dialect does so and unique if that
is among its options.  If the values of the attribute determine their rows, it does one or the other, except in
PostgreSQL where the attribute is only numbered, by its type. -/
structure Attribute.Enforced (d : Dialect) (a : Attribute) (definition : List Token) : Prop where
  name : definedColumn? definition = some a.name
  key : isKeyed definition = true ↔ a.qualifiers.primaryKey = true ∨ d = .sqlite ∧ a.qualifiers.autoIncrement = true
  unique : isDistinct definition = true ↔ a.qualifiers.unique = true
  enforced : a.isUnique = true → isKeyed definition = true ∨ isDistinct definition = true ∨
    d = .postgres ∧ a.qualifiers.autoIncrement = true ∧ definition[1]? = some (.word "serial")

theorem Dialect.keys_iff {d : Dialect} {a : Attribute} : d.keys a = true ↔
    a.qualifiers.primaryKey = true ∨ d = .sqlite ∧ a.qualifiers.autoIncrement = true := by
  cases d <;> simp [keys, numbers, or_comm]

/-- no word stands in a literal but inside of a string -/
theorem Literal.word_not_mem_tokens (l : Literal) (text : String) : Token.word text ∉ slotTokens l.slots := by
  rcases l.slotTokens_cases with ⟨t, hl, -⟩ | ⟨t, hl, -⟩ | ⟨t, hl, -⟩ <;> rw [hl] <;> simp

theorem word_not_mem_defaultTokens {text : String} (h : text ≠ "default") (default : Option Literal) :
    Token.word text ∉ defaultTokens default := by
  cases default with
  | none => exact List.not_mem_nil
  | some l =>
    intro hmem
    rcases List.mem_cons.mp hmem with heq | hmem
    · exact h (Token.word.inj heq)
    · exact l.word_not_mem_tokens text hmem

variable {d : Dialect} {a : Attribute} {default : Option Literal}

theorem isKeyed_columnTokens : isKeyed (columnTokens d a default) = d.keys a := by
  have hword : Token.word "primary" ∉ defaultTokens default := word_not_mem_defaultTokens (by decide) default
  unfold isKeyed
  show decide ([Token.word "primary", Token.word "key"] <:+: markTokens _ _ _ ++ _) = d.keys a
  cases hkeys : d.keys a with
  | true => exact decide_eq_true (List.prefix_append _ _).isInfix
  | false =>
    refine decide_eq_false fun hinfix => ?_
    have hmem := hinfix.subset List.mem_cons_self
    simp [mem_markTokens, hword] at hmem

theorem isDistinct_columnTokens : isDistinct (columnTokens d a default) = a.qualifiers.unique := by
  have hword : Token.word "unique" ∉ defaultTokens default := word_not_mem_defaultTokens (by decide) default
  rw [Bool.eq_iff_iff, isDistinct, List.contains_iff_mem]
  simp [columnTokens, mem_markTokens, hword]

theorem Attribute.Declared.isInteger (h : a.Declared) (hauto : a.qualifiers.autoIncrement = true) :
    a.type.isInteger = true := by
  induction h with
  | declare made =>
    obtain ⟨-, hinteger, -, rfl⟩ := declare_eq_ok.mp made
    exact hinteger hauto
  | bind owner _ ih => exact ih hauto

theorem Attribute.Declared.underlying_eq_integer (h : a.Declared) (hauto : a.qualifiers.autoIncrement = true) :
    a.type.underlying = .integer := by
  have hkind := beq_iff_eq.mp (h.isInteger hauto)
  cases htype : a.type.underlying with
  | integer => rfl
  | _ => rw [htype] at hkind; exact nomatch hkind

theorem columnType_serial (ha : a.Declared) (hauto : a.qualifiers.autoIncrement = true) :
    Dialect.postgres.columnType a = "serial" := by
  unfold Dialect.columnType Dialect.affinity
  rw [hauto, ha.underlying_eq_integer hauto]
  rfl

theorem enforced_columnTokens (ha : a.Declared) (default : Option Literal) :
    a.Enforced d (columnTokens d a default) where
  name := rfl
  key := by rw [isKeyed_columnTokens, Dialect.keys_iff]
  unique := by rw [isDistinct_columnTokens]
  enforced := by
    intro hunique
    rw [isKeyed_columnTokens, isDistinct_columnTokens, Dialect.keys_iff]
    rw [Attribute.isUnique, Qualifiers.isUnique, Bool.or_eq_true, Bool.or_eq_true] at hunique
    rcases hunique with (hauto | hkey) | hunique
    · cases d with
      | sqlite => exact .inl (.inr ⟨rfl, hauto⟩)
      | postgres =>
        refine .inr (.inr ⟨rfl, hauto, ?_⟩)
        rw [← columnType_serial ha hauto]
        rfl
    · exact .inl (.inl hkey)
    · exact .inr (.inl hunique)

/-! ## tables -/

namespace TableDeclaration

variable {c : TableDeclaration} {t : Relation}

/-- the definitions in the statement that creates a declared table, and how many of them are primary keys -/
theorem enforced_create (hc : ∀ a ∈ c.attributes, a.Declared) (ht : c.run = .ok t) {s : Statement}
    (hs : createStatement d t = .ok s) :
    List.Forall₂ (Attribute.Enforced d) c.attributes (definitionsOf s.sql) ∧
      (definitionsOf s.sql).countP isKeyed = c.attributes.countP d.keys := by
  rw [definitionsOf_create hc ht hs, bound, List.map_map]
  constructor
  · rw [List.forall₂_map_right_iff, List.forall₂_same]
    intro a ha
    -- binding an attribute to its table changes none of what is read here
    have henforced := enforced_columnTokens (d := d) (.bind c.owner (hc a ha)) (a.bind c.owner).defaultLiteral?
    exact ⟨henforced.name, henforced.key, henforced.unique, henforced.enforced⟩
  · rw [List.countP_map]
    exact List.countP_congr fun a _ => by
      rw [Function.comp_apply, Function.comp_apply, isKeyed_columnTokens]
      rfl

/-- **What the definition of a table enforces.**  Every declared table can be created, and its statement has a
definition for each attribute, in order.  It is a primary key for as many columns as there are attributes that the
dialect makes one, and every attribute that determines its rows is a primary key or unique, unless it is only
numbered and the dialect is PostgreSQL. -/
theorem keys_created (d : Dialect) (hc : ∀ a ∈ c.attributes, a.Declared) (ht : c.run = .ok t) :
    ∃ s, createStatement d t = .ok s ∧
      List.Forall₂ (Attribute.Enforced d) c.attributes (definitionsOf s.sql) ∧
      (definitionsOf s.sql).countP isKeyed = c.attributes.countP d.keys := by
  obtain ⟨s, hs⟩ := c.exists_createStatement d hc ht
  exact ⟨s, hs, enforced_create hc ht hs⟩

section

def ticketNumber : Attribute := ⟨"id", .integer, { autoIncrement := true }, .loose ⟨0⟩⟩

def tickets : TableDeclaration := ⟨⟨1⟩, "tickets", [ticketNumber], ∅⟩

def ticketTable : Relation where
  kind := .table "tickets" ∅
  sources := ["tickets"]
  columns := [⟨"id", .attr (ticketNumber.bind tickets.owner)⟩]
  restrictions := []
  groups := []
  orders := []

theorem declared_tickets : ∀ a ∈ tickets.attributes, a.Declared := by
  intro a ha
  have hid : Attribute.declare ⟨0⟩ "id" .integer { autoIncrement := true } = .ok ticketNumber := rfl
  rw [List.mem_singleton.mp ha]
  exact .declare hid

/-- the hypotheses of `keys_created` can be met: the number of a ticket is the primary key in SQLite -/
theorem keys_created_tickets :
    (∀ a ∈ tickets.attributes, a.Declared) ∧ tickets.run = .ok ticketTable ∧
      ∃ s, createStatement .sqlite ticketTable = .ok s ∧
        List.Forall₂ (Attribute.Enforced .sqlite) tickets.attributes (definitionsOf s.sql) ∧
        (definitionsOf s.sql).countP isKeyed = 1 :=
  ⟨declared_tickets, rfl, keys_created .sqlite declared_tickets rfl⟩

def player (serial : Serial) (name : String) : Attribute :=
  ⟨name, .integer, { primaryKey := true }, .loose serial⟩

def games : TableDeclaration := ⟨⟨4⟩, "games", [player ⟨2⟩ "home", player ⟨3⟩ "guest"], ∅⟩

theorem declared_games : ∀ a ∈ games.attributes, a.Declared := by
  intro a ha
  have hhome : Attribute.declare ⟨2⟩ "home" .integer { primaryKey := true } = .ok (player ⟨2⟩ "home") := rfl
  have hguest : Attribute.declare ⟨3⟩ "guest" .integer { primaryKey := true } = .ok (player ⟨3⟩ "guest") := rfl
  rcases List.mem_cons.mp ha with rfl | ha
  · exact .declare hhome
  · rw [List.mem_singleton.mp ha]
    exact .declare hguest

/-- **There may be two primary keys, and a key that nothing enforces.**  Both players of a game are primary keys,
and in PostgreSQL the number of a ticket is neither a primary key nor unique. -/
theorem not_keys_created :
    (¬ ∀ d (c : TableDeclaration) t s, (∀ a ∈ c.attributes, a.Declared) → c.run = .ok t →
        createStatement d t = .ok s → (definitionsOf s.sql).countP isKeyed ≤ 1) ∧
      ¬ ∀ d (c : TableDeclaration) t s, (∀ a ∈ c.attributes, a.Declared) → c.run = .ok t →
        createStatement d t = .ok s →
        List.Forall₂ (fun a definition => a.isUnique = true → isKeyed definition = true ∨ isDistinct definition = true)
          c.attributes (definitionsOf s.sql) := by
  constructor
  · intro h
    have ht : games.run = .ok _ := rfl
    obtain ⟨s, hs⟩ := games.exists_createStatement .sqlite declared_games ht
    have hcount := (enforced_create declared_games ht hs).2
    have hle := h _ _ _ _ declared_games ht hs
    rw [hcount] at hle
    exact absurd hle (by decide)
  · intro h
    have ht : tickets.run = .ok ticketTable := rfl
    obtain ⟨s, hs⟩ := tickets.exists_createStatement .postgres declared_tickets ht
    have hforall := h _ _ _ _ declared_tickets ht hs
    rw [definitionsOf_create declared_tickets ht hs] at hforall
    have hnumber := (List.forall₂_cons.mp hforall).1 rfl
    rw [isKeyed_columnTokens, isDistinct_columnTokens] at hnumber
    exact absurd hnumber (by decide)

end

end TableDeclaration

end TableAlgebra
