import TableAlgebra.Proofs.Sql.Legible
import TableAlgebra.Sql.Command

/-!
# The definition of a table

The statement that creates a table lists the definitions of its columns.  Every declared table has such a
statement, since a column is only declared with a default that is a literal of its type.  Its text says which
columns the table has: read by the lexer, it gives back their names in order.

* `Defines`                    a text is read as the definition of a column;
* `exists_createStatement`     a declared table can be created in every dialect;
* `definedColumns_create`      the columns of a table, read off the statement that creates it.
-/

namespace TableAlgebra

/-! ## columns -/

/-- the definition of a column without its default -/
def definitionHead (d : Dialect) (a : Attribute) : String :=
  a.name ++ " " ++ d.columnType a
    ++ (match d.keyConstraint? a with
      | some key => " " ++ key
      | none => "")
    ++ (if a.qualifiers.unique then " unique" else "")
    ++ (if a.qualifiers.notNull then " not null" else "")

theorem isIdentifier_columnType (d : Dialect) (a : Attribute) : isIdentifier (d.columnType a) = true := by
  have haffinity : isIdentifier a.type.underlying.affinity = true := by
    cases a.type.underlying with
    | enum labels => exact (by decide : isIdentifier "text" = true)
    | _ => decide
  cases d with
  | sqlite => exact haffinity
  | postgres =>
    unfold Dialect.columnType
    dsimp only
    split
    · decide
    · exact haffinity

theorem ends_keyConstraint {d : Dialect} {a : Attribute} {key : String}
    (h : d.keyConstraint? a = some key) :
    ∃ tokens, Ends (" " ++ key) tokens ∧ Token.symbol "," ∉ tokens := by
  have hkey : key = "primary key autoincrement" ∨ key = "primary key" := by
    cases d with
    | sqlite =>
      unfold Dialect.keyConstraint? at h
      dsimp only at h
      split at h
      · exact .inl (Option.some.inj h).symm
      · split at h
        · exact .inr (Option.some.inj h).symm
        · exact nomatch h
    | postgres =>
      unfold Dialect.keyConstraint? at h
      dsimp only at h
      split at h
      · exact .inr (Option.some.inj h).symm
      · exact nomatch h
  rcases hkey with rfl | rfl
  · exact ⟨_, .of_fixed (closes_word _) rfl rfl rfl, by decide⟩
  · exact ⟨_, .of_fixed (closes_word _) rfl rfl rfl, by decide⟩

/-- the text is read as the name and further tokens, none of them a comma -/
def Defines (name text : String) : Prop :=
  ∃ more, Reads text (.word name :: more) ∧ Token.symbol "," ∉ more

section

variable {name text part : String} {more : List Token}

theorem Defines.append (h : Defines name text) (hpart : Ends part more) (hmore : Token.symbol "," ∉ more) :
    Defines name (text ++ part) := by
  obtain ⟨front, hread, hfront⟩ := h
  exact ⟨front ++ more, hread.append hpart, by simp [hfront, hmore]⟩

theorem Defines.append_if (h : Defines name text) (hpart : Ends part more)
    (hmore : Token.symbol "," ∉ more) (c : Bool) : Defines name (text ++ if c then part else "") := by
  cases c with
  | true => exact h.append hpart hmore
  | false =>
    show Defines name (text ++ "")
    rwa [String.append_empty]

end

theorem defines_definitionHead (d : Dialect) {a : Attribute} (ha : a.Legible) :
    Defines a.name (definitionHead d a) := by
  have htyped : Defines a.name (a.name ++ " " ++ d.columnType a) := by
    have hblank : Separates " " [] := .of_fixed rfl rfl rfl
    have htype : Ends (" " ++ d.columnType a) [.word (d.columnType a)] :=
      hblank.append (reads_word (isIdentifier_columnType d a))
    have hname : Defines a.name a.name := ⟨[], reads_word ha.1, List.not_mem_nil⟩
    rw [String.append_assoc]
    exact hname.append htype (by simp)
  have hkeyed : Defines a.name (a.name ++ " " ++ d.columnType a ++ match d.keyConstraint? a with
      | some key => " " ++ key
      | none => "") := by
    cases hkey : d.keyConstraint? a with
    | none =>
      show Defines a.name (a.name ++ " " ++ d.columnType a ++ "")
      rwa [String.append_empty]
    | some key =>
      obtain ⟨more, hmore, hcomma⟩ := ends_keyConstraint hkey
      exact htyped.append hmore hcomma
  have hunique : Ends " unique" _ := .of_fixed (closes_word _) rfl rfl rfl
  have hnull : Ends " not null" _ := .of_fixed (closes_word _) rfl rfl rfl
  exact (hkeyed.append_if hunique (by decide) _).append_if hnull (by decide) _

theorem definitionText_eq (d : Dialect) (a : Attribute) : definitionText d a =
    match a.qualifiers.default with
    | some value => (defaultText d value).map fun text => definitionHead d a ++ (" default " ++ text)
    | none => .ok (definitionHead d a) := by
  unfold definitionText
  cases a.qualifiers.default with
  | none =>
    show Except.ok (definitionHead d a ++ "") = _
    rw [String.append_empty]
  | some value =>
    dsimp only
    cases defaultText d value <;> rfl

/-- no comma stands in a literal but inside of a string -/
theorem Literal.comma_not_mem_tokens (l : Literal) : Token.symbol "," ∉ slotTokens l.slots := by
  have hnumeral : ∀ text : String, Token.symbol "," ∉ slotTokens (numeralSlots text) := by
    intro text
    unfold numeralSlots
    split <;> simp [slotTokens, Slot.fill, Slot.symbol]
  cases l with
  | integer i => exact hnumeral _
  | number x => exact hnumeral _
  | boolean b => simp [slots, slotTokens, Slot.fill]
  | string s => simp [slots, slotTokens, Slot.fill]
  | label v => simp [slots, slotTokens, Slot.fill]

theorem definitionText_eq_ok {d : Dialect} {a : Attribute} {text : String} :
    definitionText d a = .ok text ↔
      (a.qualifiers.default = none ∧ definitionHead d a = text) ∨
        ∃ value l, a.qualifiers.default = some value ∧ value.toLiteral = .ok l ∧
          definitionHead d a ++ (" default " ++ l.sqlText d) = text := by
  rw [definitionText_eq]
  cases hdefault : a.qualifiers.default with
  | none => simp
  | some value =>
    simp only [defaultText_eq]
    cases hl : value.toLiteral <;> simp [hl, Except.map]

theorem defines_definitionText {d : Dialect} {a : Attribute} (ha : a.Legible) {text : String}
    (h : definitionText d a = .ok text) : Defines a.name text := by
  have hhead := defines_definitionHead d ha
  rcases definitionText_eq_ok.mp h with ⟨-, rfl⟩ | ⟨value, l, -, hl, rfl⟩
  · exact hhead
  · have hword : Separates " default " [.word "default"] := .of_fixed rfl rfl rfl
    have hliteral := Literal.reads_sqlText d (Literal.Made.value hl).legible
    exact hhead.append (hword.append hliteral) (by simp [l.comma_not_mem_tokens])

theorem DataType.exists_literal_of_checkDefault {t : DataType} {value : Value}
    (h : t.checkDefault value = .ok ()) : ∃ l, value.toLiteral = .ok l := by
  unfold checkDefault at h
  split at h
  · exact ⟨_, rfl⟩
  · obtain ⟨l, hl, -⟩ := bind_eq_ok.mp h
    exact ⟨l, hl⟩

theorem Attribute.Declared.exists_literal {a : Attribute} (h : a.Declared) {value : Value}
    (hvalue : a.qualifiers.default = some value) : ∃ l, value.toLiteral = .ok l := by
  induction h with
  | declare made =>
    obtain ⟨-, -, hdefault, rfl⟩ := declare_eq_ok.mp made
    exact DataType.exists_literal_of_checkDefault (hdefault value hvalue)
  | bind owner _ ih => exact ih hvalue

theorem exists_definitionText (d : Dialect) {a : Attribute} (ha : a.Declared) :
    ∃ text, definitionText d a = .ok text := by
  cases hdefault : a.qualifiers.default with
  | none => exact ⟨_, definitionText_eq_ok.mpr (.inl ⟨hdefault, rfl⟩)⟩
  | some value =>
    obtain ⟨l, hl⟩ := ha.exists_literal hdefault
    exact ⟨_, definitionText_eq_ok.mpr (.inr ⟨value, l, hdefault, hl, rfl⟩)⟩

/-! ## tables -/

def createText (name : String) (definitions : List String) : String :=
  "create table " ++ name ++ " (" ++ ", ".intercalate definitions ++ ")"

theorem createStatement_eq_ok {d : Dialect} {r : Relation} {s : Statement} :
    createStatement d r = .ok s ↔ ∃ name definitions, r.name? = some name ∧
      r.attributes.mapM (definitionText d) = .ok definitions ∧ s = { sql := createText name definitions } := by
  unfold createStatement requireCreatable
  constructor
  · intro h
    obtain ⟨name, hname, h⟩ := bind_eq_ok.mp h
    obtain ⟨definitions, hdefinitions, h⟩ := bind_eq_ok.mp h
    cases hr : r.name? with
    | none => simp [hr] at hname
    | some name' =>
      rw [hr] at hname
      obtain rfl := Except.ok.inj hname
      exact ⟨name', definitions, rfl, hdefinitions, (Except.ok.inj h).symm⟩
  · rintro ⟨name, definitions, hname, hdefinitions, rfl⟩
    rw [hname, hdefinitions]
    rfl

namespace TableDeclaration

variable {c : TableDeclaration} {t : Relation}

theorem attributes_of_run (h : c.run = .ok t) : t.attributes = c.bound := by
  obtain ⟨-, -, -, rfl⟩ := Relation.table_eq_ok.mp h
  show (Relation.tableColumns c.owner c.attributes).filterMap (fun column => column.expr.attribute?)
    = c.attributes.map (·.bind c.owner)
  unfold Relation.tableColumns
  rw [List.filterMap_map, ← List.filterMap_eq_map]
  rfl

theorem name?_of_run (h : c.run = .ok t) : t.name? = some c.name := by
  obtain ⟨-, -, -, rfl⟩ := Relation.table_eq_ok.mp h
  rfl

theorem declared_attributes (hc : ∀ a ∈ c.attributes, a.Declared) (ht : c.run = .ok t) :
    ∀ a ∈ t.attributes, a.Declared := by
  rw [attributes_of_run ht]
  intro a ha
  obtain ⟨b, hb, rfl⟩ := List.mem_map.mp ha
  exact .bind _ (hc b hb)

/-- **Every declared table can be created**, in every dialect. -/
theorem exists_createStatement (d : Dialect) (hc : ∀ a ∈ c.attributes, a.Declared) (ht : c.run = .ok t) :
    ∃ s, createStatement d t = .ok s := by
  have htexts : ∀ a ∈ t.attributes, ∃ text, definitionText d a = .ok text := by
    intro a ha
    exact exists_definitionText d (declared_attributes hc ht a ha)
  obtain ⟨definitions, hdefinitions⟩ := exists_mapM htexts
  exact ⟨_, createStatement_eq_ok.mpr ⟨c.name, definitions, name?_of_run ht, hdefinitions, rfl⟩⟩

end TableDeclaration

/-! ## reading the columns -/

/-- the name that a definition of a column begins with -/
def definedColumn? : List Token → Option String
  | .word name :: _ => some name
  | _ => none

/-- the columns that a text creating a table defines: after the name of the table and the parenthesis, the
name at the beginning and after each comma -/
def definedColumns (text : String) : List String :=
  match lex text with
  | some (_ :: _ :: _ :: _ :: tokens) => (tokens.dropLast.splitOn (.symbol ",")).filterMap definedColumn?
  | _ => []

theorem exists_tokens_of_defines {names texts : List String} (h : List.Forall₂ Defines names texts) :
    ∃ definitions, List.Forall₂ Reads texts definitions ∧ (∀ ts ∈ definitions, Token.symbol "," ∉ ts) ∧
      definitions.filterMap definedColumn? = names := by
  induction h with
  | nil => exact ⟨[], .nil, by simp, rfl⟩
  | @cons name text names texts hdefines _ ih =>
    obtain ⟨more, hread, hmore⟩ := hdefines
    obtain ⟨definitions, hreads, hcommas, hnames⟩ := ih
    refine ⟨(.word name :: more) :: definitions, .cons hread hreads, ?_, ?_⟩
    · simpa [hmore] using hcommas
    · rw [List.filterMap_cons, hnames]
      rfl

theorem reads_createText {table : String} (htable : isIdentifier table = true) {texts : List String}
    {definitions : List (List Token)} (h : List.Forall₂ Reads texts definitions) :
    Reads (createText table texts) (.word "create" :: .word "table" :: .word table :: .symbol "("
      :: ([Token.symbol ","].intercalate definitions ++ [Token.symbol ")"])) := by
  have hcreate : Opens "create table " [.word "create", .word "table"] := .of_fixed rfl rfl
  have hopen : Separates " (" [.symbol "("] := .of_fixed rfl rfl rfl
  have hcomma : Separates ", " [.symbol ","] := .of_fixed rfl rfl rfl
  have hclose : Separates ")" [.symbol ")"] := .of_fixed rfl rfl rfl
  exact (((hcreate.append (reads_word htable)).append_separator hopen).append
    (reads_intercalate hcomma h)).append hclose.ends

theorem definedColumns_createText {table : String} {names texts : List String}
    (htable : isIdentifier table = true) (hne : names ≠ []) (h : List.Forall₂ Defines names texts) :
    definedColumns (createText table texts) = names := by
  obtain ⟨definitions, hreads, hcommas, hnames⟩ := exists_tokens_of_defines h
  have hne' : definitions ≠ [] := by
    rintro rfl
    exact hne hnames.symm
  unfold definedColumns
  rw [(reads_createText htable hreads).lex_eq]
  show ((([Token.symbol ","].intercalate definitions) ++ [Token.symbol ")"]).dropLast.splitOn
    (Token.symbol ",")).filterMap definedColumn? = names
  rw [List.dropLast_concat, List.splitOn_intercalate _ hcommas hne', hnames]

/-- **The statement that creates a declared table names its columns**: read by the lexer, it gives them back
in order. -/
theorem definedColumns_create {d : Dialect} {c : TableDeclaration} {t : Relation} {s : Statement}
    (hc : ∀ a ∈ c.attributes, a.Declared) (ht : c.run = .ok t) (hs : createStatement d t = .ok s) :
    definedColumns s.sql = c.attributes.map Attribute.name := by
  obtain ⟨name, definitions, hname, hdefinitions, rfl⟩ := createStatement_eq_ok.mp hs
  obtain ⟨hid, -, hne, -⟩ := Relation.table_eq_ok.mp ht
  rw [c.name?_of_run ht] at hname
  obtain rfl := Option.some.inj hname
  rw [c.attributes_of_run ht] at hdefinitions
  have hsound : c.Sound := ⟨hid, hc⟩
  refine definedColumns_createText hid (by simpa using hne) ?_
  have hdefines : List.Forall₂ (fun a text => Defines (Attribute.name a) text) c.bound definitions := by
    have hboth := (List.forall₂_and_left _ _).mpr ⟨fun a ha => hsound.legible ha, mapM_eq_ok.mp hdefinitions⟩
    exact hboth.imp fun a text h => defines_definitionText h.1 h.2
  have hnames : c.attributes.map Attribute.name = c.bound.map Attribute.name := by
    rw [TableDeclaration.bound, List.map_map]
    rfl
  rwa [hnames, List.forall₂_map_left_iff]

end TableAlgebra
