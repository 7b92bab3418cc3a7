import TableAlgebra.Proofs.Sql.Insertion
import TableAlgebra.Proofs.Sql.Creatable
import TableAlgebra.Proofs.Sql.Keys

/-!
# Where the dialects differ

A dialect is asked for every truth value in an expression, at any depth of operands and subselects, for the type
and the key of every column that is defined, and for the conventions of insertions.  Truth values are the same in
both, so are columns that are not numbered, and insertions of one row but for what PostgreSQL has at their end.

* `exprText_dialect`, `selectText_dialect`   expressions and queries have one text in every dialect;
* `columnDefinition_sqlite`, `columnDefinition_postgres`   the definition of a numbered column;
* `columnDefinition_plain`                   that of any other;
* `Relation.Derived.dialects_agree`          the statements of both dialects for a derived relation.
-/

namespace TableAlgebra

/-! ## queries -/

section

variable (d d' : Dialect) {r : Relation}

theorem Literal.sqlText_dialect (l : Literal) : l.sqlText d = l.sqlText d' := by
  cases l with
  | boolean b => exact (d.booleanLiteral_eq b).trans (d'.booleanLiteral_eq b).symm
  | _ => rfl

/-- a truth value has one text in an operand and in a subselect, and everything else is not asked of the dialect -/
theorem structural_text : Structural (fun e => ∀ qualified, exprText d qualified e = exprText d' qualified e)
    (fun r => ∀ rename, selectText d rename r = selectText d' rename r) where
  literal l qualified := by rw [exprText_literal, exprText_literal, l.sqlText_dialect d d']
  attr a qualified := by rw [exprText_attr, exprText_attr]
  binary op t l r hl hr qualified := by rw [exprText_binary, exprText_binary, hl, hr]
  aggregate f t e he qualified := by rw [exprText_aggregate, exprText_aggregate, he]
  member t e r he hr qualified := by rw [exprText_member, exprText_member, he, hr]
  relation r hexprs rename := by
    have htexts (qualified : Bool) {es : List Expr} (hes : ∀ e ∈ es, e ∈ r.exprs) :
        exprTexts d qualified es = exprTexts d' qualified es := by
      rw [exprTexts_eq_map, exprTexts_eq_map]
      exact List.map_congr_left fun e he => hexprs e (hes e he) qualified
    have hcolumns (qualified : Bool) :
        columnTexts d qualified rename r.columns = columnTexts d' qualified rename r.columns := by
      rw [columnTexts_eq_map, columnTexts_eq_map]
      refine List.map_congr_left fun c hc => ?_
      rw [columnText_eq, columnText_eq, hexprs c.expr (Relation.mem_exprs.mpr (.inl ⟨c, hc, rfl⟩))]
    rw [selectText_eq, selectText_eq, hcolumns, htexts _ fun e he => Relation.mem_exprs.mpr (.inr (.inl he)),
      htexts _ fun e he => Relation.mem_exprs.mpr (.inr (.inr (.inl he))),
      htexts _ fun e he => Relation.mem_exprs.mpr (.inr (.inr (.inr he)))]

theorem exprText_dialect (qualified : Bool) (e : Expr) : exprText d qualified e = exprText d' qualified e :=
  (structural_text d d').of_expr e qualified

theorem selectText_dialect (rename : Bool) (r : Relation) : selectText d rename r = selectText d' rename r :=
  (structural_text d d').of_relation r rename

theorem valueText_dialect (table : String) (use : TypedUse) (column : String) (value : Operand) :
    valueText d r table use column value = valueText d' r table use column value := by
  unfold valueText
  simp only [exprText_dialect d d']

theorem conditionText_dialect (place : Place) (condition : Expr) :
    conditionText d r place condition = conditionText d' r place condition := by
  rw [conditionText_eq, conditionText_eq, exprText_dialect d d']

theorem whereText_dialect (place : Place) (condition : Option Expr) :
    whereText d r place condition = whereText d' r place condition := by
  unfold whereText
  simp only [conditionText_dialect d d']

theorem tupleTexts_dialect (table : String) (first : Row) (index : Nat) (rows : List Row) :
    tupleTexts d r table first index rows = tupleTexts d' r table first index rows := by
  induction rows generalizing index with
  | nil => rfl
  | cons row rows ih =>
    have htuple : tupleText d r table first row index = tupleText d' r table first row index := by
      unfold tupleText
      simp only [valueText_dialect d d']
    rw [tupleTexts, tupleTexts, htuple, ih]

theorem updateStatement_dialect (row : Row) (condition : Option Expr) :
    updateStatement d r row condition = updateStatement d' r row condition := by
  unfold updateStatement
  simp only [valueText_dialect d d', whereText_dialect d d']

theorem removeStatement_dialect (condition : Option Expr) :
    removeStatement d r condition = removeStatement d' r condition := by
  unfold removeStatement
  simp only [whereText_dialect d d']

end

/-! ## definitions -/

variable {r : Relation} {a : Attribute}

def Dialect.optionsText (d : Dialect) (a : Attribute) : String :=
  markText a.qualifiers.unique " unique" ++ markText a.qualifiers.notNull " not null"
    ++ defaultPart d a.defaultLiteral?

def Dialect.columnDefinition (d : Dialect) (a : Attribute) : String :=
  definitionHead d a ++ defaultPart d a.defaultLiteral?

theorem optionsText_dialect (d d' : Dialect) (a : Attribute) : d.optionsText a = d'.optionsText a := by
  unfold Dialect.optionsText
  cases a.defaultLiteral? with
  | none => rfl
  | some l => rw [defaultPart, defaultPart, l.sqlText_dialect d d']

theorem columnDefinition_eq (d : Dialect) (a : Attribute) : d.columnDefinition a =
    a.name ++ (" " ++ d.columnType a)
      ++ (markText (d.keys a) " primary key" ++ markText (d.numbers a) " autoincrement") ++ d.optionsText a := by
  unfold Dialect.columnDefinition Dialect.optionsText
  rw [definitionHead_eq]
  simp only [String.append_assoc]

theorem columnDefinition_sqlite (ha : a.Declared) (hauto : a.qualifiers.autoIncrement = true) :
    Dialect.sqlite.columnDefinition a
      = a.name ++ " integer primary key autoincrement" ++ Dialect.sqlite.optionsText a := by
  have htype : Dialect.sqlite.columnType a = "integer" := by
    unfold Dialect.columnType Dialect.affinity
    rw [ha.underlying_eq_integer hauto]
    rfl
  have hnumbers : Dialect.sqlite.numbers a = true := hauto
  rw [columnDefinition_eq, htype, Dialect.keys, hnumbers]
  simp [markText, String.append_assoc]

theorem columnDefinition_postgres (ha : a.Declared) (hauto : a.qualifiers.autoIncrement = true) :
    Dialect.postgres.columnDefinition a =
      a.name ++ " serial" ++ markText a.qualifiers.primaryKey " primary key"
        ++ Dialect.postgres.optionsText a := by
  rw [columnDefinition_eq, columnType_serial ha hauto]
  show _ ++ (markText a.qualifiers.primaryKey " primary key" ++ "") ++ _ = _
  rw [String.append_empty]
  rfl

/-- a column that is not numbered is defined alike -/
theorem columnDefinition_plain (hauto : a.qualifiers.autoIncrement = false) (d : Dialect) :
    d.columnDefinition a = a.name ++ (" " ++ a.type.underlying.affinity)
      ++ markText a.qualifiers.primaryKey " primary key" ++ d.optionsText a := by
  have htype : d.columnType a = a.type.underlying.affinity := by
    cases d with
    | sqlite => rfl
    | postgres =>
      unfold Dialect.columnType
      rw [hauto]
      rfl
  have hnumbers : d.numbers a = false := by
    rw [Dialect.numbers, hauto, Bool.and_false]
  rw [columnDefinition_eq, htype, Dialect.keys, hnumbers, Bool.false_or]
  show _ ++ (_ ++ "") ++ _ = _
  rw [String.append_empty]

theorem definitionText_eq_definition (d : Dialect) (ha : a.Declared) :
    definitionText d a = .ok (d.columnDefinition a) := by
  obtain ⟨text, htext⟩ := exists_definitionText d ha
  rw [htext, definitionText_eq_parts htext]
  rfl

theorem createStatement_eq {name : String} (hname : r.name? = some name) (hr : ∀ a ∈ r.attributes, a.Declared)
    (d : Dialect) : createStatement d r = .ok { sql := createText name (r.attributes.map d.columnDefinition) } := by
  refine createStatement_eq_ok.mpr ⟨name, _, hname, mapM_eq_ok.mpr ?_, rfl⟩
  rw [List.forall₂_map_right_iff, List.forall₂_same]
  exact fun a ha => definitionText_eq_definition d (hr a ha)

/-! ## insertions -/

def Statement.followedBy (s : Statement) (text : String) : Statement := { s with sql := s.sql ++ text }

theorem insertText_postgres (name : String) (columns tuples : List String) :
    insertText .postgres name columns tuples = insertText .sqlite name columns tuples ++ " returning *" := by
  unfold insertText
  show _ ++ " returning *" = (_ ++ "") ++ " returning *"
  rw [String.append_empty]

theorem insertStatement_one (r : Relation) (row : Row) : insertStatement .postgres r [row] =
    (insertStatement .sqlite r [row]).map (·.followedBy " returning *") := by
  cases hname : r.name? with
  | none =>
    rw [insertStatement_of_name?_eq_none hname, insertStatement_of_name?_eq_none hname]
    rfl
  | some name =>
    have hone (d : Dialect) : ¬ (([] : List Row) ≠ [] ∧ d = .sqlite) := fun h => h.1 rfl
    rw [insertStatement_cons hname, insertStatement_cons hname, if_neg (hone _), if_neg (hone _)]
    split
    · rfl
    · simp only [insertText_postgres]
      rw [tupleTexts_dialect .postgres .sqlite]
      cases tupleTexts .sqlite r name row 0 [row] <;> rfl

theorem insertStatement_postgres_ne {rows : List Row} {d : Dialect} :
    insertStatement .postgres r rows ≠ .error (.multiRowUnsupported d) := by
  intro h
  cases hname : r.name? with
  | none =>
    rw [insertStatement_of_name?_eq_none hname] at h
    cases h
  | some name =>
    cases rows with
    | nil =>
      rw [insertStatement_nil hname] at h
      cases h
    | cons first rest =>
      rw [insertStatement_cons hname] at h
      split at h
      · cases h
      split at h
      · rename_i hmany
        exact absurd hmany.2 (by decide)
      · exact tupleTexts_ne_multiRowUnsupported (map_eq_error.mp h)

theorem insertStatement_of_isTable (htable : r.isTable = true) :
    (∀ d, insertStatement d r [] = .error (.emptyRow .insert)) ∧
      (∀ d first rest, first.isEmpty = true → insertStatement d r (first :: rest) = .error (.emptyRow .insert)) ∧
      ∀ first rest, first.isEmpty = false → rest ≠ [] →
        insertStatement .sqlite r (first :: rest) = .error (.multiRowUnsupported .sqlite) := by
  obtain ⟨name, hname⟩ := isTable_iff.mp htable
  refine ⟨insertStatement_nil hname, fun d first rest hempty => ?_, fun first rest hempty hrest => ?_⟩
  · rw [insertStatement_cons hname, if_pos hempty]
  · rw [insertStatement_cons hname, if_neg (by simp [hempty]), if_pos ⟨hrest, rfl⟩]

/-! ## both dialects -/

namespace Relation

/-- The statements of both dialects for a relation.  Every dialect writes an expression, a query, a value and a
condition alike, although it is asked for the truth values in them.  So the statements are the same, up to what is
meant to be different in insertions and in the definitions of numbered columns. -/
structure DialectsAgree (r : Relation) : Prop where
  expr : ∀ d d' qualified e, exprText d qualified e = exprText d' qualified e
  select : ∀ d d' rename, selectText d rename r = selectText d' rename r ∧
    Command.compile d (.select r rename) = .ok { sql := selectText d rename r }
  value : ∀ d d' table use column v, valueText d r table use column v = valueText d' r table use column v ∧
    ∀ text, valueText d r table use column v = .ok text ↔
      ∃ target e, r.Takes column v target e ∧ exprText d' false e = text
  condition : ∀ d d' place c, conditionText d r place c = conditionText d' r place c ∧
    ∀ text, conditionText d r place c = .ok text ↔ r.Keeps c ∧ exprText d' false c = text
  drop : Command.compile .sqlite (.drop r) = Command.compile .postgres (.drop r)
  update : ∀ row condition,
    Command.compile .sqlite (.update r row condition) = Command.compile .postgres (.update r row condition)
  remove : ∀ condition, Command.compile .sqlite (.remove r condition) = Command.compile .postgres (.remove r condition)
  /-- one row is inserted alike, but for the end of the text -/
  one : ∀ row, Command.compile .postgres (.insert r [row]) =
    (Command.compile .sqlite (.insert r [row])).map (·.followedBy " returning *")
  several : ∀ first rest, rest ≠ [] → Command.compile .sqlite (.insert r (first :: rest)) =
    if r.isTable = false ∨ first.isEmpty = true then Command.compile .postgres (.insert r (first :: rest))
    else .error (.multiRowUnsupported .sqlite)
  notWritable : r.isTable = false → ∀ d rows, Command.compile d (.insert r rows) = .error (.notWritable .insert)
  emptyRow : r.isTable = true → ∀ d rows, (∀ first ∈ rows.head?, first.isEmpty = true) →
    Command.compile d (.insert r rows) = .error (.emptyRow .insert)
  multiRow : ∀ rows d, Command.compile .postgres (.insert r rows) ≠ .error (.multiRowUnsupported d)
  notCreatable : r.isTable = false → ∀ d, Command.compile d (.create r) = .error .notCreatable
  create : ∀ name, r.name? = some name → ∀ d, Command.compile d (.create r) =
    .ok { sql := createText name (r.attributes.map d.columnDefinition) }
  plain : ∀ a ∈ r.attributes, a.qualifiers.autoIncrement = false →
    Dialect.sqlite.columnDefinition a = Dialect.postgres.columnDefinition a
  /-- a numbered column is an integer key in the one and a serial in the other -/
  numbered : r.isTable = true → ∀ a ∈ r.attributes, a.qualifiers.autoIncrement = true → ∀ d : Dialect,
    Dialect.sqlite.columnDefinition a = a.name ++ " integer primary key autoincrement" ++ d.optionsText a ∧
    Dialect.postgres.columnDefinition a =
      a.name ++ " serial" ++ (if a.qualifiers.primaryKey then " primary key" else "") ++ d.optionsText a

variable {admitted : Expr → Prop} {ds : List TableDeclaration}

theorem Derived.declared_attributes (h : Derived admitted ds r) (htable : r.isTable = true) :
    ∀ a ∈ r.attributes, a.Declared := by
  obtain ⟨c, -, hc, made⟩ := h.declared_of_isTable htable
  exact c.declared_attributes hc made

/-- **The dialects differ only where they are meant to.**  Expressions, queries, drops, updates and removals are the
same in both, and what refuses the one refuses the other.  An insertion of one row ends in a clause in PostgreSQL;
several rows are refused by SQLite, after the table and the first row were checked as in PostgreSQL.  The definitions
of a table differ in the columns that are numbered and in no others. -/
theorem Derived.dialects_agree (h : Derived admitted ds r) : r.DialectsAgree where
  expr d d' qualified e := exprText_dialect d d' qualified e
  select d d' rename := ⟨selectText_dialect d d' rename r, rfl⟩
  value d d' table use column v := by
    refine ⟨valueText_dialect d d' table use column v, fun text => ?_⟩
    rw [valueText_dialect d d', valueText_eq_ok]
  condition d d' place c := by
    refine ⟨conditionText_dialect d d' place c, fun text => ?_⟩
    rw [conditionText_dialect d d', conditionText_eq_ok]
  drop := rfl
  update row condition := updateStatement_dialect .sqlite .postgres row condition
  remove condition := removeStatement_dialect .sqlite .postgres condition
  one row := insertStatement_one r row
  several first rest hrest := by
    unfold Command.compile
    dsimp only
    cases htable : r.isTable with
    | false =>
      have hrefused := fun d => (ReadOnly.of_isTable htable).insert d (first :: rest)
      rw [if_pos (.inl rfl)]
      exact (hrefused _).trans (hrefused _).symm
    | true =>
      obtain ⟨-, hempty, hlong⟩ := insertStatement_of_isTable htable
      cases hfirst : first.isEmpty with
      | true => rw [if_pos (.inr rfl), hempty _ _ _ hfirst, hempty _ _ _ hfirst]
      | false => rw [if_neg (by simp), hlong _ _ hfirst hrest]
  notWritable htable d rows := (ReadOnly.of_isTable htable).insert d rows
  emptyRow htable d rows hrows := by
    obtain ⟨hnone, hempty, -⟩ := insertStatement_of_isTable htable
    cases rows with
    | nil => exact hnone d
    | cons first rest => exact hempty d first rest (hrows first rfl)
  multiRow _ _ := insertStatement_postgres_ne
  notCreatable htable := (ReadOnly.of_isTable htable).create
  create name hname d := by
    have htable : r.isTable = true := isTable_iff.mpr ⟨name, hname⟩
    exact createStatement_eq hname (h.declared_attributes htable) d
  plain a _ hauto := by
    rw [columnDefinition_plain hauto, columnDefinition_plain hauto, optionsText_dialect .sqlite .postgres]
  numbered htable a ha hauto d := by
    have hdeclared := h.declared_attributes htable a ha
    rw [optionsText_dialect d .sqlite]
    refine ⟨columnDefinition_sqlite hdeclared hauto, ?_⟩
    rw [optionsText_dialect .sqlite .postgres]
    exact columnDefinition_postgres hdeclared hauto

/-- the hypothesis of `Derived.dialects_agree` can be met: tickets are numbered in both dialects -/
theorem dialects_agree_tickets : Derived (fun _ => True) [TableDeclaration.tickets] TableDeclaration.ticketTable ∧
    TableDeclaration.ticketTable.DialectsAgree ∧
    Command.compile .sqlite (.create TableDeclaration.ticketTable) =
      .ok { sql := "create table tickets (id integer primary key autoincrement)" } ∧
    Command.compile .postgres (.create TableDeclaration.ticketTable) =
      .ok { sql := "create table tickets (id serial)" } := by
  have hderived : Derived (fun _ => True) [TableDeclaration.tickets] TableDeclaration.ticketTable :=
    .table TableDeclaration.declared_tickets rfl
  exact ⟨hderived, Derived.dialects_agree hderived, by decide, by decide⟩

end Relation

end TableAlgebra
