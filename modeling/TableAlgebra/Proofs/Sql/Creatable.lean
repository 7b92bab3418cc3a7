import TableAlgebra.Proofs.Sql.Definition

/-!
# What can be created and written to

Only a declared table can be created, dropped and written to.  Its kind is all that the statements look at,
and every operator resets it, so a relation that still has the kind of a table is a declaration as it was
made: nothing was restricted, grouped or ordered, and its columns are the attributes it was declared with.

* `TableDeclaration.Accepted`    a relation is a declared table, and every statement takes it as one;
* `Relation.ReadOnly`            a relation is refused by every statement but a query;
* `Relation.Derived.accepted_or_readOnly`   a derived relation is one or the other, and which of them follows
                                 from the last operator.
-/

namespace TableAlgebra

/-! ## refusals -/

/-- the statement is not refused for want of a table -/
def Allows {α : Type} (x : Except CompileError α) : Prop := ∀ kind, x ≠ .error (.notWritable kind)

namespace Allows

variable {α β : Type}

theorem ok (a : α) : Allows (Except.ok a) := fun _ h => nomatch h

theorem bind {x : Except CompileError α} {f : α → Except CompileError β} (hx : Allows x)
    (hf : ∀ a, Allows (f a)) : Allows (x >>= f) := by
  intro kind h
  cases x with
  | error e => exact hx kind (congrArg Except.error (Except.error.inj h))
  | ok a => exact hf a kind h

theorem map {x : Except CompileError α} {f : α → β} (hx : Allows x) : Allows (x.map f) := by
  intro kind h
  cases x with
  | error e => exact hx kind (congrArg Except.error (Except.error.inj h))
  | ok a => exact nomatch h

theorem mapM {f : α → Except CompileError β} (hf : ∀ a, Allows (f a)) (as : List α) :
    Allows (as.mapM f) := by
  induction as with
  | nil => exact ok []
  | cons a as ih =>
    rw [List.mapM_cons]
    exact (hf a).bind fun b => ih.bind fun bs => ok (b :: bs)

theorem throw {e : CompileError} (he : ∀ kind, e ≠ .notWritable kind) :
    Allows (throw e : Except CompileError α) := fun kind h => he kind (Except.error.inj h)

theorem check {c : Prop} [Decidable c] {e : CompileError} {rest : Unit → Except CompileError α}
    (he : ∀ kind, e ≠ .notWritable kind) (hrest : Allows (rest ())) :
    Allows (if c then MonadExcept.throw e >>= rest else rest ()) := by
  split
  · exact (throw he).bind fun _ => hrest
  · exact hrest

end Allows

variable {r : Relation}

theorem allows_valueText (d : Dialect) (r : Relation) (table : String) (use : TypedUse) (column : String)
    (value : Operand) : Allows (valueText d r table use column value) := by
  have hrest (target : Expr) : Allows (do
      let e ← value.toExpr.mapError CompileError.algebra
      if !r.valid e then
        MonadExcept.throw (CompileError.algebra (.outOfScope .writeValue))
      if !target.type.joinable e.type then
        MonadExcept.throw (.algebra (.incompatibleTypes use target.type e.type))
      return exprText d false e) := by
    refine .bind ?_ fun e => .check (by simp) (.check (by simp) (.ok _))
    cases value.toExpr with
    | error e => exact .throw (by simp)
    | ok e => exact .ok e
  unfold valueText
  cases r.column? column with
  | none => exact .bind (.throw (by simp)) hrest
  | some target => exact hrest target

theorem allows_whereText (d : Dialect) (r : Relation) (place : Place) (condition : Option Expr) :
    Allows (whereText d r place condition) := by
  cases condition with
  | none => exact .ok ""
  | some c =>
    have hcondition : Allows (conditionText d r place c) := by
      unfold conditionText
      exact .check (by simp) (.check (by simp) (.ok _))
    exact hcondition.map

theorem allows_tupleTexts (d : Dialect) (r : Relation) (table : String) (first : Row) (rows : List Row)
    (index : Nat) : Allows (tupleTexts d r table first index rows) := by
  induction rows generalizing index with
  | nil => exact .ok []
  | cons row rows ih =>
    have htuple : Allows (tupleText d r table first row index) := by
      unfold tupleText
      refine .check (by simp) (.bind (.mapM (fun column => ?_) _) fun values => .ok _)
      cases row.find? column with
      | none => exact .throw (by simp)
      | some value => exact allows_valueText d r table .insert column value
    exact htuple.bind fun tuple => (ih (index + 1)).bind fun tuples => .ok (tuple :: tuples)

/-! ## tables -/

theorem Relation.exists_name (h : r.isTable = true) : ∃ name, r.name? = some name := by
  unfold Relation.isTable at h
  unfold Relation.name?
  cases hkind : r.kind with
  | table name options => exact ⟨name, rfl⟩
  | derived => simp [hkind] at h

/-- **A table can be written to**: whatever is wrong with the rows or the condition, it is not refused for
not being a table. -/
theorem allows_of_isTable (h : r.isTable = true) (d : Dialect) :
    (∀ rows, Allows (Command.compile d (.insert r rows))) ∧
      (∀ row condition, Allows (Command.compile d (.update r row condition))) ∧
      ∀ condition, Allows (Command.compile d (.remove r condition)) := by
  obtain ⟨name, hname⟩ := Relation.exists_name h
  have hwritable (kind : WriteKind) : requireWritable r kind = .ok name := by
    rw [requireWritable, hname]
  refine ⟨fun rows => ?_, fun row condition => ?_, fun condition => ?_⟩
  · show Allows (insertStatement d r rows)
    unfold insertStatement
    rw [hwritable]
    refine .bind (.ok name) fun table => ?_
    cases rows with
    | nil => exact .throw (by simp)
    | cons first rest =>
      exact .check (by simp) (.check (by simp) ((allows_tupleTexts d r table first _ 0).bind fun _ => .ok _))
  · show Allows (updateStatement d r row condition)
    unfold updateStatement
    rw [hwritable]
    refine .bind (.ok name) fun table => .check (by simp) (.bind (.mapM (fun entry => ?_) _) fun _ =>
      (allows_whereText d r _ condition).bind fun _ => .ok _)
    exact (allows_valueText d r table .update entry.1 entry.2).bind fun _ => .ok _
  · show Allows (removeStatement d r condition)
    unfold removeStatement
    rw [hwritable]
    exact .bind (.ok name) fun table => (allows_whereText d r _ condition).bind fun _ => .ok _

theorem TableDeclaration.columns_of_run {d : TableDeclaration} (made : d.run = .ok r) :
    r.columns = Relation.tableColumns d.owner d.attributes := by
  obtain ⟨-, -, -, rfl⟩ := Relation.table_eq_ok.mp made
  rfl

theorem TableDeclaration.keys_of_run {d : TableDeclaration} (made : d.run = .ok r) :
    r.keys = d.attributes.map Attribute.name := by
  rw [Relation.keys, d.columns_of_run made, Relation.tableColumns, List.map_map]
  rfl

/-- what a declaration with declared attributes makes: a table as it was declared, that every statement
takes -/
structure TableDeclaration.Accepted (d : TableDeclaration) (r : Relation) : Prop where
  /-- its name is that of the declaration -/
  name : r.name? = some d.name
  /-- it reads itself alone -/
  sources : r.sources = [d.name]
  /-- nothing was restricted, grouped or ordered -/
  restrictions : r.restrictions = []
  groups : r.groups = []
  orders : r.orders = []
  /-- its attributes are the declared ones, in order and bound to it -/
  attributes : r.attributes = d.attributes.map (·.bind d.owner)
  /-- there is a column at least, and each is a bare attribute of this very table under its own name -/
  columns_ne_nil : r.columns ≠ []
  column : ∀ c ∈ r.columns, ∃ a ∈ r.attributes, c.expr = .attr a ∧ a.owner? = some d.owner ∧ c.key = a.name
  /-- its columns have distinct names -/
  nodup : r.keys.Nodup
  isIdentifier : ∀ key ∈ r.keys, isIdentifier key = true
  /-- every default is a literal -/
  default : ∀ a ∈ r.attributes, ∀ value, a.qualifiers.default = some value → ∃ l, value.toLiteral = .ok l
  /-- it is created with one definition for each attribute in order, and these name its columns -/
  create : ∀ dialect : Dialect, ∃ definitions : List String,
    List.Forall₂ (fun a text => definitionText dialect a = .ok text) r.attributes definitions ∧
      Command.compile dialect (.create r) = .ok { sql := createText d.name definitions } ∧
      definedColumns (createText d.name definitions) = r.keys
  drop : ∀ dialect : Dialect,
    Command.compile dialect (.drop r) = .ok { sql := "drop table if exists " ++ d.name }
  /-- no row and no condition is refused for want of a table -/
  insert : ∀ (dialect : Dialect) (rows : List Row), Allows (Command.compile dialect (.insert r rows))
  update : ∀ (dialect : Dialect) (row : Row) (condition : Option Expr),
    Allows (Command.compile dialect (.update r row condition))
  remove : ∀ (dialect : Dialect) (condition : Option Expr),
    Allows (Command.compile dialect (.remove r condition))

/-- a declared table is created with one definition for each attribute, and these name its columns -/
theorem TableDeclaration.creates {d : TableDeclaration} (declared : ∀ a ∈ d.attributes, a.Declared)
    (made : d.run = .ok r) (dialect : Dialect) : ∃ definitions : List String,
      List.Forall₂ (fun a text => definitionText dialect a = .ok text) r.attributes definitions ∧
        Command.compile dialect (.create r) = .ok { sql := createText d.name definitions } ∧
        definedColumns (createText d.name definitions) = r.keys := by
  obtain ⟨s, hs⟩ := d.exists_createStatement dialect declared made
  have hcolumns := definedColumns_create declared made hs
  obtain ⟨name, definitions, hname, hdefinitions, hsql⟩ := createStatement_eq_ok.mp hs
  obtain rfl : d.name = name := Option.some.inj ((d.name?_of_run made).symm.trans hname)
  rw [hsql] at hs hcolumns
  exact ⟨definitions, mapM_eq_ok.mp hdefinitions, hs, hcolumns.trans (d.keys_of_run made).symm⟩

theorem TableDeclaration.accepted {d : TableDeclaration} (declared : ∀ a ∈ d.attributes, a.Declared)
    (made : d.run = .ok r) : d.Accepted r := by
  have hattributes := d.attributes_of_run made
  have hname := d.name?_of_run made
  obtain ⟨hid, hnodup, hne, hr⟩ := Relation.table_eq_ok.mp made
  have hcolumns := d.columns_of_run made
  have hkeys := d.keys_of_run made
  have hdeclared := d.declared_attributes declared made
  have htable : r.isTable = true := hr ▸ rfl
  exact
    { name := hname
      sources := hr ▸ rfl
      restrictions := hr ▸ rfl
      groups := hr ▸ rfl
      orders := hr ▸ rfl
      attributes := hattributes
      columns_ne_nil := by
        rw [hcolumns, Relation.tableColumns]
        simpa using hne
      column := by
        intro c hc
        rw [hcolumns] at hc
        obtain ⟨b, hb, rfl⟩ := List.mem_map.mp hc
        exact ⟨b.bind d.owner, hattributes ▸ List.mem_map_of_mem hb, rfl, rfl, rfl⟩
      nodup := hkeys ▸ hnodup
      isIdentifier := by
        rw [hkeys]
        intro key hkey
        obtain ⟨a, ha, rfl⟩ := List.mem_map.mp hkey
        exact (declared a ha).isIdentifier_name
      default := fun a ha value hvalue => (hdeclared a ha).exists_literal hvalue
      create := d.creates declared made
      drop := by
        intro dialect
        show dropStatement r = _
        rw [dropStatement, requireCreatable, hname]
        rfl
      insert := fun dialect => (allows_of_isTable htable dialect).1
      update := fun dialect => (allows_of_isTable htable dialect).2.1
      remove := fun dialect => (allows_of_isTable htable dialect).2.2 }

namespace Relation

/-! ## everything else -/

/-- every statement but a query refuses the relation, whatever is to be written -/
structure ReadOnly (r : Relation) : Prop where
  isTable : r.isTable = false
  create : ∀ d : Dialect, Command.compile d (.create r) = .error .notCreatable
  drop : ∀ d : Dialect, Command.compile d (.drop r) = .error .notCreatable
  insert : ∀ (d : Dialect) (rows : List Row),
    Command.compile d (.insert r rows) = .error (.notWritable .insert)
  update : ∀ (d : Dialect) (row : Row) (condition : Option Expr),
    Command.compile d (.update r row condition) = .error (.notWritable .update)
  remove : ∀ (d : Dialect) (condition : Option Expr),
    Command.compile d (.remove r condition) = .error (.notWritable .remove)

theorem ReadOnly.of_isTable (h : r.isTable = false) : r.ReadOnly := by
  have hname : r.name? = none := by
    unfold Relation.isTable at h
    unfold Relation.name?
    cases hkind : r.kind with
    | table name options => simp [hkind] at h
    | derived => rfl
  have hcreatable : requireCreatable r = .error .notCreatable := by rw [requireCreatable, hname]
  have hwritable (kind : WriteKind) : requireWritable r kind = .error (.notWritable kind) := by
    rw [requireWritable, hname]
  refine ⟨h, fun d => ?_, fun d => ?_, fun d rows => ?_, fun d row condition => ?_, fun d condition => ?_⟩
  · show createStatement d r = _
    rw [createStatement, hcreatable]
    rfl
  · show dropStatement r = _
    rw [dropStatement, hcreatable]
    rfl
  · show insertStatement d r rows = _
    rw [insertStatement, hwritable]
    rfl
  · show updateStatement d r row condition = _
    rw [updateStatement, hwritable]
    rfl
  · show removeStatement d r condition = _
    rw [removeStatement, hwritable]
    rfl

theorem isTable_of_run {op : Operation} {s : Relation} (made : op.run r = .ok s)
    (hop : op ≠ .restrict none) : s.isTable = false := by
  cases op with
  | project columns =>
    obtain ⟨cs, -, -, -, rfl⟩ := project_eq_ok.mp made
    rfl
  | restrict predicate =>
    cases predicate with
    | none => exact absurd rfl hop
    | some p =>
      obtain ⟨-, -, rfl⟩ := filter_eq_ok.mp made
      rfl
  | group key =>
    obtain ⟨-, rfl⟩ := group_eq_ok.mp made
    rfl
  | order key =>
    obtain ⟨-, rfl⟩ := order_eq_ok.mp made
    rfl

theorem isTable_of_join {s j : Relation} {on : Expr} (made : r.join s on = .ok j) : j.isTable = false := by
  obtain ⟨-, -, rfl, -⟩ := join_eq_ok.mp made
  rfl

variable {admitted : Expr → Prop} {ds : List TableDeclaration}

/-- a derived relation that is a table is a declaration as it was made -/
theorem Derived.declared_of_isTable (h : Derived admitted ds r) (htable : r.isTable = true) :
    ∃ d, ds = [d] ∧ (∀ a ∈ d.attributes, a.Declared) ∧ d.run = .ok r := by
  induction h with
  | @table d t declared made => exact ⟨d, rfl, declared, made⟩
  | @step ds op s s' tables base given nested made ih _ =>
    by_cases hop : op = .restrict none
    · subst hop
      obtain rfl : s = s' := Except.ok.inj made
      exact ih htable
    · exact absurd (isTable_of_run made hop) (by simp [htable])
  | join _ _ _ _ _ made _ _ _ => exact absurd (isTable_of_join made) (by simp [htable])

/-- **Base tables, and they alone, can be created and written to.**  A derived relation that is a table is a
declaration as it was made, and every statement takes it; every other one is refused.  What an operator
makes is no table, unless it is a restriction by nothing. -/
theorem Derived.accepted_or_readOnly (h : Derived admitted ds r) :
    (r.isTable = true → ∃ d, ds = [d] ∧ d.Accepted r) ∧
      (r.isTable = false → r.ReadOnly) ∧
      (∀ op s, Operation.run op r = .ok s → op ≠ .restrict none → s.ReadOnly) ∧
      ∀ s on j, r.join s on = .ok j → j.ReadOnly := by
  refine ⟨fun htable => ?_, .of_isTable, fun op s made hop => .of_isTable (isTable_of_run made hop),
    fun s on j made => .of_isTable (isTable_of_join made)⟩
  obtain ⟨d, hds, declared, made⟩ := h.declared_of_isTable htable
  exact ⟨d, hds, d.accepted declared made⟩

/-- the hypothesis of `Derived.accepted_or_readOnly` can be met: by a table, with a key among its columns -/
theorem accepted_or_readOnly_personTable :
    Derived (fun _ => True) [persons] personTable ∧ personTable.isTable = true ∧
      ∃ d, [persons] = [d] ∧ d.Accepted personTable :=
  ⟨derived_personTable _, rfl, (Derived.accepted_or_readOnly (derived_personTable fun _ => True)).1 rfl⟩

end Relation

end TableAlgebra
