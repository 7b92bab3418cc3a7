import TableAlgebra.Proofs.Filling.Grounded
import TableAlgebra.Proofs.Filling.Uniform
import TableAlgebra.Proofs.Sql.Writing

/-!
# Filling and statements

Whether there is a statement for a command does not depend on the strings filled in, and neither do its
tokens, but for the places of the strings.  Every statement is built by steps that are uniform, from a relation
that is derived from tables and expressions that a program can make.

* `Row.fill`, `Command.fill`    the strings of rows and commands put in;
* `uniform_valueText`           a value for a column, and the column is named by an identifier;
* `Command.uniform_compile`     the statement for a command is uniform.
-/

namespace TableAlgebra

/-! ## rows and commands -/

def Row.fill (σ : String → String) (row : Row) : Row := row.map (Operand.fill σ)

def Command.fill (σ : String → String) : Command → Command
  | select r rename => select (r.fill σ) rename
  | create r => create (r.fill σ)
  | drop r => drop (r.fill σ)
  | insert r rows => insert (r.fill σ) (rows.map (Row.fill σ))
  | update r row condition => update (r.fill σ) (row.fill σ) (condition.map (Expr.fill σ))
  | remove r condition => remove (r.fill σ) (condition.map (Expr.fill σ))

namespace Row

variable {σ : String → String}

theorem entries_fill (row : Row) :
    (row.fill σ).entries = row.entries.map fun e => (e.1, e.2.fill σ) := rfl

@[simp] theorem keys_fill (row : Row) : (row.fill σ).keys = row.keys := OrderedMap.keys_map _ row

@[simp] theorem isEmpty_fill (row : Row) : (row.fill σ).isEmpty = row.isEmpty := OrderedMap.isEmpty_map _ row

@[simp] theorem find?_fill (row : Row) (key : String) :
    (row.fill σ).find? key = (row.find? key).map (Operand.fill σ) :=
  OrderedMap.find?_map _ row key

@[simp] theorem sameColumns_fill (row other : Row) :
    (row.fill σ).sameColumns (other.fill σ) = row.sameColumns other := by
  have hcontains : OrderedMap.contains (row.fill σ) = OrderedMap.contains row :=
    funext (OrderedMap.contains_map (Operand.fill σ) row)
  unfold sameColumns
  rw [hcontains, keys_fill, fill, fill, OrderedMap.size_map, OrderedMap.size_map]

end Row

def Row.Grounded (R : Roster) (row : Row) : Prop := ∀ entry ∈ row.entries, entry.2.Grounded R

/-! ## tables -/

/-- the name is the same in every filling, and an identifier -/
def Names (_ : String → String) (name text : String) : Prop := text = name ∧ isIdentifier name = true

theorem Names.fits {σ : String → String} {name text : String} (h : Names σ name text) :
    Fits σ (fixedSlots [.word name]) text := by
  obtain ⟨rfl, hid⟩ := h
  exact .fixed (reads_word hid)

/-- the name that a statement takes from its table, if the relation is one -/
theorem uniform_name {R : Roster} {r : Relation} (hr : r.Grounded R) (e : CompileError) :
    Uniform Names fun σ => match (r.fill σ).name? with
      | some name => (.ok name : Except CompileError String)
      | none => .error e := by
  simp only [Relation.name?_fill]
  cases hname : r.name? with
  | none => exact .inl fun _ _ h => nomatch h
  | some name =>
    obtain ⟨ds, hds⟩ := hr.derived
    exact .ok name fun _ => ⟨rfl, hds.isIdentifier_name hname⟩

theorem uniform_defaultText (d : Dialect) (v : Value) : Uniform Fits fun σ => defaultText d (v.fill σ) := by
  simp only [defaultText_eq, Value.toLiteral_fill]
  cases hl : v.toLiteral with
  | error e => exact .inl fun _ _ h => nomatch h
  | ok l =>
    refine .ok l.slots fun σ => ?_
    rw [Fits, ← l.slotTokens_slots_fill]
    exact Literal.reads_sqlText d (Literal.Made.value hl).legible.fill

theorem uniform_definitionText (d : Dialect) {a : Attribute} (ha : a.Legible) :
    Uniform Fits fun σ => definitionText d (a.fill σ) := by
  obtain ⟨more, hhead, -⟩ := defines_definitionHead d ha
  have hsame : ∀ σ, definitionHead d (a.fill σ) = definitionHead d a := by
    intro σ
    have htype : d.columnType (a.fill σ) = d.columnType a := by
      cases d <;> simp [Dialect.columnType, Dialect.affinity, Attribute.fill, Qualifiers.fill]
    unfold definitionHead
    rw [htype]
    rfl
  simp only [definitionText_eq, hsame]
  cases hdefault : a.qualifiers.default with
  | none =>
    simp only [Attribute.fill, Qualifiers.fill, hdefault, Option.map_none]
    exact .ok (fixedSlots (.word a.name :: more)) fun _ => .fixed hhead
  | some value =>
    simp only [Attribute.fill, Qualifiers.fill, hdefault, Option.map_some]
    refine (uniform_defaultText d value).map fun slots => ⟨fixedSlots (.word a.name :: more)
      ++ fixedSlots [.word "default"] ++ slots, fun σ text htext => ?_⟩
    rw [← String.append_assoc]
    exact Fits.between (.fixed hhead) (.of_fixed rfl rfl rfl) htext

theorem uniform_createStatement (d : Dialect) {R : Roster} {r : Relation} (hr : r.Grounded R) :
    Uniform (fun σ slots s => Fits σ slots s.sql) fun σ => createStatement d (r.fill σ) := by
  have hattributes : ∀ σ, (r.fill σ).attributes = r.attributes.map (Attribute.fill σ) := by
    intro σ
    unfold Relation.attributes
    rw [Relation.columns_fill, List.filterMap_map, List.map_filterMap]
    exact List.filterMap_congr fun c _ => c.expr.attribute?_fill
  have hlegible : ∀ a ∈ r.attributes, a.Legible := by
    intro a ha
    obtain ⟨c, hc, hca⟩ := List.mem_filterMap.mp ha
    exact hr.deepLegible.legible.leaf a
      (Relation.mem_leaves_of_mem_columns hc (Expr.attribute?_eq_some.mp hca))
  unfold createStatement
  simp only [hattributes, List.mapM_map]
  refine (uniform_name hr .notCreatable).bind fun name names hnames => ?_
  refine (Uniform.mapM fun a ha => uniform_definitionText d (hlegible a ha)).bind
    fun items texts htexts => ?_
  have hcreate : Opens "create table " [.word "create", .word "table"] := .of_fixed rfl rfl
  have hopen : Separates " (" [.symbol "("] := .of_fixed rfl rfl rfl
  have hcomma : Separates ", " [.symbol ","] := .of_fixed rfl rfl rfl
  have hclose : Separates ")" [.symbol ")"] := .of_fixed rfl rfl rfl
  exact .ok _ fun σ => (((hnames σ).fits.after hcreate).between hopen
    (.intercalate hcomma (htexts σ))).before hclose.ends

theorem uniform_dropStatement {R : Roster} {r : Relation} (hr : r.Grounded R) :
    Uniform (fun σ slots s => Fits σ slots s.sql) fun σ => dropStatement (r.fill σ) := by
  unfold dropStatement
  refine (uniform_name hr .notCreatable).bind fun name names hnames => ?_
  have hdrop : Opens "drop table if exists " [.word "drop", .word "table", .word "if", .word "exists"] :=
    .of_fixed rfl rfl
  exact .ok _ fun σ => (hnames σ).fits.after hdrop

/-! ## writing -/

/-- the text is read as the slots, filled in, when it stands at the end of another one -/
def Continues (σ : String → String) (slots : List Slot) (text : String) : Prop :=
  ∀ before front, Fits σ before front → Fits σ (before ++ slots) (front ++ text)

section

variable {R : Roster} (hR : R.Unique) {r : Relation} (hr : r.Grounded R) (d : Dialect)

include hR hr

/-- a value for a column, which is one of the relation and named by an identifier -/
theorem uniform_valueText {value : Operand} (hvalue : value.Grounded R) (table : String) (use : TypedUse)
    (column : String) :
    Uniform (fun σ slots text => Fits σ slots text ∧ isIdentifier column = true)
      fun σ => valueText d (r.fill σ) table use column (value.fill σ) := by
  cases hcolumn : r.column? column with
  | none =>
    unfold valueText
    simp only [Relation.column?_fill, hcolumn]
    exact .inl fun _ _ h => nomatch h
  | some target =>
    obtain ⟨c, hc, rfl⟩ := Option.map_eq_some_iff.mp hcolumn
    have hmem := List.mem_of_find?_eq_some hc
    have htarget : c.expr.In R := Relation.In.column hr.within hmem
    have hkey : isIdentifier column = true := by
      have hfound : c.key = column := by simpa using List.find?_some hc
      exact hfound ▸ hr.deepLegible.legible.key c hmem
    have hfilled : ∀ σ, (r.fill σ).column? column = some (c.expr.fill σ) := by
      intro σ
      rw [Relation.column?_fill, hcolumn]
      rfl
    cases he : value.toExpr with
    | error e =>
      unfold valueText
      simp only [hfilled, Operand.toExpr_fill, he]
      exact .inl fun _ _ h => nomatch h
    | ok e =>
      have hgrounded := hvalue e he
      have hvalid : ∀ σ, (r.fill σ).valid (e.fill σ) = r.valid e :=
        fun σ => Relation.valid_fill hR hr.within hgrounded.leaf
      have hjoin : ∀ σ, (c.expr.fill σ).type.joinable (e.fill σ).type = c.expr.type.joinable e.type := by
        intro σ
        rw [Expr.type_fill, Expr.type_fill, DataType.joinable_fill hR htarget.type hgrounded.type]
      have hexpr : ∀ σ, (value.fill σ).toExpr = .ok (e.fill σ) := by
        intro σ
        rw [Operand.toExpr_fill, he]
        rfl
      simp only [valueText_eq (hfilled _) (hexpr _), hvalid, hjoin]
      refine .ite (fun hv => .ite (fun _ => ?_) fun _ => .error _) fun _ => .error _
      exact .ok _ fun σ => ⟨reads_exprText_fill (hgrounded.deepLegible hr hv) d false σ, hkey⟩

theorem uniform_whereText {condition : Option Expr} (hcondition : ∀ e ∈ condition, e.Grounded R)
    (place : Place) :
    Uniform Continues fun σ => whereText d (r.fill σ) place (condition.map (Expr.fill σ)) := by
  unfold whereText
  cases condition with
  | none => exact .ok [] fun σ front text h => by rwa [List.append_nil, String.append_empty]
  | some e =>
    have hgrounded := hcondition e rfl
    have hvalid : ∀ σ, (r.fill σ).valid (e.fill σ) = r.valid e :=
      fun σ => Relation.valid_fill hR hr.within hgrounded.leaf
    have htype : ∀ σ, (e.fill σ).type.isBoolean = e.type.isBoolean := by
      intro σ
      rw [Expr.type_fill, DataType.isBoolean_fill]
    have hwhere : Separates " where " [.word "where"] := .of_fixed rfl rfl rfl
    have htext : Uniform Fits fun σ => conditionText d (r.fill σ) place (e.fill σ) := by
      simp only [conditionText_eq, hvalid, htype]
      refine .ite (fun hv => .ite (fun _ => ?_) fun _ => .error _) fun _ => .error _
      exact .ok _ fun σ => reads_exprText_fill (hgrounded.deepLegible hr hv) d false σ
    refine htext.map fun slots => ⟨fixedSlots [.word "where"] ++ slots, fun σ text h front text' h' => ?_⟩
    rw [← List.append_assoc, ← String.append_assoc]
    exact h'.between hwhere h

theorem uniform_tupleText {first row : Row} (hrow : row.Grounded R) (table : String) (index : Nat) :
    Uniform (fun σ slots text => Fits σ slots text ∧ ∀ column ∈ first.keys, isIdentifier column = true)
      fun σ => tupleText d (r.fill σ) table (first.fill σ) (row.fill σ) index := by
  unfold tupleText
  simp only [Row.sameColumns_fill, Row.keys_fill, Row.find?_fill]
  have hcomma : Separates "," [.symbol ","] := .of_fixed rfl rfl rfl
  refine .ite (fun _ => .inl fun _ _ h => nomatch h) fun _ => ?_
  refine .bind (?_ : Uniform (fun σ items texts => List.Forall₂ (Fits σ) items texts ∧
    ∀ column ∈ first.keys, isIdentifier column = true) _) fun items texts htexts => ?_
  · refine .mapM_and fun column _ => ?_
    cases hfind : row.find? column with
    | none => exact .inl fun _ _ h => nomatch h
    | some value =>
      obtain ⟨front, back, hentries, -⟩ := List.lookup_eq_some_iff.mp hfind
      have hmem : (column, value) ∈ row.entries := by simp [hentries]
      exact uniform_valueText hR hr d (hrow _ hmem) table .insert column
  · exact .ok _ fun σ => ⟨.intercalate hcomma (htexts σ).1, (htexts σ).2⟩

theorem uniform_tupleTexts (first : Row) (table : String) (index : Nat) {rows : List Row}
    (hrows : ∀ row ∈ rows, row.Grounded R) :
    Uniform (fun σ items texts => List.Forall₂ (Fits σ) items texts ∧
        (rows ≠ [] → ∀ column ∈ first.keys, isIdentifier column = true))
      fun σ => tupleTexts d (r.fill σ) table (first.fill σ) index (rows.map (Row.fill σ)) := by
  induction rows generalizing index with
  | nil => exact .ok [] fun σ => ⟨.nil, fun h => absurd rfl h⟩
  | cons row rows ih =>
    obtain ⟨hrow, hrows⟩ := List.forall_mem_cons.mp hrows
    simp only [List.map_cons, tupleTexts]
    refine (uniform_tupleText hR hr d hrow table index).bind fun slots text htext => ?_
    refine (ih (index + 1) hrows).bind fun items texts htexts => ?_
    exact .ok (slots :: items) fun σ => ⟨.cons (htext σ).1 (htexts σ).1, fun _ => (htext σ).2⟩

theorem uniform_insertStatement {rows : List Row} (hrows : ∀ row ∈ rows, row.Grounded R) :
    Uniform (fun σ slots s => Fits σ slots s.sql)
      fun σ => insertStatement d (r.fill σ) (rows.map (Row.fill σ)) := by
  unfold insertStatement
  refine (uniform_name hr (.notWritable .insert)).bind fun name names hnames => ?_
  cases rows with
  | nil => exact .inl fun _ _ h => nomatch h
  | cons first rest =>
    have hname : ∀ σ, names σ = name := fun σ => (hnames σ).1
    have htable : ∀ σ, Fits σ (fixedSlots [.word name]) name := fun σ => hname σ ▸ (hnames σ).fits
    simp only [List.map_cons, Row.isEmpty_fill, Row.keys_fill, List.length_cons, List.length_map, hname]
    refine .ite (fun _ => .inl fun _ _ h => nomatch h) fun _ => ?_
    refine .ite (fun _ => .inl fun _ _ h => nomatch h) fun _ => ?_
    have htuples := uniform_tupleTexts hR hr d first name 0 hrows
    simp only [List.map_cons] at htuples
    refine htuples.bind fun items texts htexts => ?_
    have hkeys : ∀ σ, List.Forall₂ (Fits σ) (first.keys.map fun key => fixedSlots [.word key])
        first.keys := by
      intro σ
      rw [List.forall₂_map_left_iff, List.forall₂_same]
      exact fun key hkey => .fixed (reads_word ((htexts σ).2 (List.cons_ne_nil _ _) key hkey))
    have hinsert : Opens "insert into " [.word "insert", .word "into"] := .of_fixed rfl rfl
    have hopen : Separates " (" [.symbol "("] := .of_fixed rfl rfl rfl
    have hcomma : Separates "," [.symbol ","] := .of_fixed rfl rfl rfl
    have hinto : Separates ") values (" [.symbol ")", .word "values", .symbol "("] := .of_fixed rfl rfl rfl
    have hnext : Separates "), (" [.symbol ")", .symbol ",", .symbol "("] := .of_fixed rfl rfl rfl
    have hclose : Separates ")" [.symbol ")"] := .of_fixed rfl rfl rfl
    have hrows := fun σ => ((((htable σ).after hinsert).between hopen
      (.intercalate hcomma (hkeys σ))).between hinto (.intercalate hnext (htexts σ).1)).before hclose.ends
    cases d with
    | sqlite =>
      simp only [Dialect.insertSuffix, String.append_empty]
      exact .ok _ hrows
    | postgres =>
      have hsuffix : Ends " returning *" _ := .of_fixed closes_star rfl rfl rfl
      exact .ok _ fun σ => (hrows σ).before hsuffix

theorem uniform_updateStatement {row : Row} (hrow : row.Grounded R) {condition : Option Expr}
    (hcondition : ∀ e ∈ condition, e.Grounded R) :
    Uniform (fun σ slots s => Fits σ slots s.sql)
      fun σ => updateStatement d (r.fill σ) (row.fill σ) (condition.map (Expr.fill σ)) := by
  unfold updateStatement
  simp only [Row.isEmpty_fill, Row.entries_fill, List.mapM_map]
  have hcomma : Separates "," [.symbol ","] := .of_fixed rfl rfl rfl
  have hequals : Separates " = " [.symbol "="] := .of_fixed rfl rfl rfl
  have hupdate : Opens "update " [.word "update"] := .of_fixed rfl rfl
  have hset : Separates " set " [.word "set"] := .of_fixed rfl rfl rfl
  refine (uniform_name hr (.notWritable .update)).bind fun name names hnames => ?_
  refine .ite (fun _ => .inl fun _ _ h => nomatch h) fun _ => ?_
  have hname : ∀ σ, names σ = name := fun σ => (hnames σ).1
  have htable : ∀ σ, Fits σ (fixedSlots [.word name]) name := fun σ => hname σ ▸ (hnames σ).fits
  simp only [hname]
  have hassignments : Uniform (fun σ => List.Forall₂ (Fits σ)) fun σ => row.entries.mapM fun entry => do
      return entry.1 ++ " = " ++ (← valueText d (r.fill σ) name .update entry.1 (entry.2.fill σ)) := by
    refine .mapM fun entry hentry => ?_
    refine (uniform_valueText hR hr d (hrow entry hentry) name .update entry.1).bind fun slots text h => ?_
    exact .ok _ fun σ => Fits.between (.fixed (reads_word (h σ).2)) hequals (h σ).1
  refine hassignments.bind fun items texts htexts => ?_
  refine (uniform_whereText hR hr d hcondition .updateCondition).bind fun slots text htext => ?_
  exact .ok _ fun σ => htext σ _ _ (((htable σ).after hupdate).between hset
    (.intercalate hcomma (htexts σ)))

theorem uniform_removeStatement {condition : Option Expr} (hcondition : ∀ e ∈ condition, e.Grounded R) :
    Uniform (fun σ slots s => Fits σ slots s.sql)
      fun σ => removeStatement d (r.fill σ) (condition.map (Expr.fill σ)) := by
  unfold removeStatement
  have hdelete : Opens "delete from " [.word "delete", .word "from"] := .of_fixed rfl rfl
  refine (uniform_name hr (.notWritable .remove)).bind fun name names hnames => ?_
  refine (uniform_whereText hR hr d hcondition .removeCondition).bind fun slots text htext => ?_
  exact .ok _ fun σ => htext σ _ _ ((hnames σ).fits.after hdelete)

end

def Command.Grounded (R : Roster) : Command → Prop
  | select r _ => r.Grounded R
  | create r => r.Grounded R
  | drop r => r.Grounded R
  | insert r rows => r.Grounded R ∧ ∀ row ∈ rows, row.Grounded R
  | update r row condition => r.Grounded R ∧ row.Grounded R ∧ ∀ e ∈ condition, e.Grounded R
  | remove r condition => r.Grounded R ∧ ∀ e ∈ condition, e.Grounded R

/-- **Commands are uniform.**  Whether there is a statement does not depend on the strings filled in, and the
statement is read as slots that do not depend on them either. -/
theorem Command.uniform_compile {R : Roster} (hR : R.Unique) (d : Dialect) {c : Command}
    (hc : c.Grounded R) :
    Uniform (fun σ slots s => Fits σ slots s.sql) fun σ => (c.fill σ).compile d := by
  cases c with
  | select r rename => exact .ok _ fun σ => reads_selectText_fill hc.deepLegible d rename σ
  | create r => exact uniform_createStatement d hc
  | drop r => exact uniform_dropStatement hc
  | insert r rows => exact uniform_insertStatement hR hc.1 d hc.2
  | update r row condition => exact uniform_updateStatement hR hc.1 d hc.2.1 hc.2.2
  | remove r condition => exact uniform_removeStatement hR hc.1 d hc.2

end TableAlgebra
