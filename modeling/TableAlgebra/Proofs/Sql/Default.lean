import TableAlgebra.Proofs.Sql.Creatable
import TableAlgebra.Proofs.Sql.Insertion

/-!
# Defaults and written values

A column may be declared with a default, and it may be given a value by an insertion.  The declaration has its own
check, and the statement that creates the table its own way to write truth values, but both accept the same host
values and write the same text for them.  A column of a domain over an enumeration is the exception on one side: its
default is a plain label, which an insertion takes as a value of the domain.

* `DataType.checkDefault_eq_ok`, `DataType.checkDefault_label`   what a column takes as its default;
* `Attribute.declare_default_eq_ok`     a default of its own changes nothing else about a column;
* `insertStatement_single`              the insertion of one value;
* `TableDeclaration.WritesAlike`        one text stands for the operand and for the default;
* `TableDeclaration.defaults_agree`     what is accepted as one is accepted as the other, and written alike.
-/

namespace TableAlgebra

/-! ## declarations -/

namespace DataType

variable {t : DataType}

theorem checkDefault_eq_ok (h : t.underlying.kind ≠ .enum) {v : Value} :
    t.checkDefault v = .ok () ↔ ∃ l, v.toLiteral = .ok l ∧ t.joinable l.type = true := by
  unfold checkDefault
  split
  · rename_i labels label hlabels
    exact absurd (hlabels ▸ rfl) h
  · rw [bind_eq_ok]
    refine exists_congr fun l => and_congr_right fun _ => ?_
    cases t.joinable l.type with
    | true => exact iff_of_true rfl rfl
    | false => exact iff_of_false nofun nofun

theorem checkDefault_label {labels : List String} (h : t.underlying = .enum labels) {label : String} :
    t.checkDefault (.string label) = .ok () ↔ label ∈ labels := by
  unfold checkDefault
  rw [h]
  by_cases hlabel : label ∈ labels <;> simp [hlabel]

end DataType

namespace Attribute

variable {serial own : Serial} {name : String} {t : DataType} {a b : Attribute}

/-- the column with a default of its own, declared anew -/
def withDefault (a : Attribute) (own : Serial) (v : Value) : Attribute :=
  { a with qualifiers := { a.qualifiers with default := some v }, origin := .loose own }

/-- where a column can be declared without options, one with a default can be declared if the default fits; it
goes before that of the type, and the other options stay -/
theorem declare_default_eq_ok (plain : declare serial name t {} = .ok a) {v : Value} :
    declare own name t { default := some v } = .ok b ↔ t.checkDefault v = .ok () ∧ a.withDefault own v = b := by
  obtain ⟨hname, hauto, -, rfl⟩ := declare_eq_ok.mp plain
  -- the default is the only option that is set, so it alone is not handed down
  have hinherit : ({ default := some v } : Qualifiers).inherit t.defaults
      = { ({} : Qualifiers).inherit t.defaults with default := some v } := rfl
  rw [declare_eq_ok, hinherit]
  constructor
  · rintro ⟨-, -, hcheck, rfl⟩
    exact ⟨hcheck v rfl, rfl⟩
  · rintro ⟨hcheck, rfl⟩
    exact ⟨hname, hauto, fun w hw => Option.some.inj hw ▸ hcheck, rfl⟩

end Attribute

/-! ## insertions -/

theorem find?_name {attributes : List Attribute} (h : (attributes.map Attribute.name).Nodup) {a : Attribute}
    (ha : a ∈ attributes) : attributes.find? (·.name == a.name) = some a := by
  induction attributes with
  | nil => exact absurd ha List.not_mem_nil
  | cons b rest ih =>
    rw [List.map_cons, List.nodup_cons] at h
    rcases List.mem_cons.mp ha with rfl | ha
    · exact List.find?_cons_of_pos (beq_self_eq_true _)
    · have hne : (b.name == a.name) = false := by
        refine beq_false_of_ne fun heq => h.1 ?_
        rw [heq]
        exact List.mem_map_of_mem ha
      rw [List.find?_cons, hne]
      exact ih h.2 ha

theorem TableDeclaration.column?_of_run {c : TableDeclaration} {r : Relation} (made : c.run = .ok r) {a : Attribute}
    (ha : a ∈ c.attributes) : r.column? a.name = some (.attr (a.bind c.owner)) := by
  obtain ⟨-, hnodup, -, -⟩ := Relation.table_eq_ok.mp made
  have hfind : c.attributes.find? ((fun column : Column => column.key == a.name) ∘
      fun b => ⟨b.name, .attr (b.bind c.owner)⟩) = some a := find?_name hnodup ha
  rw [Relation.column?, c.columns_of_run made, Relation.tableColumns, List.find?_map, hfind]
  rfl

theorem insertStatement_single {r : Relation} {table : String} (htable : r.name? = some table) (d : Dialect)
    (column : String) (value : Operand) :
    insertStatement d r [.ofList [(column, value)]] =
      (valueText d r table .insert column value).map fun text => { sql := insertText d table [column] [text] } := by
  have hkeys : (OrderedMap.ofList [(column, value)]).keys = [column] := rfl
  have hfind : (OrderedMap.ofList [(column, value)]).find? column = some value :=
    OrderedMap.find?_of_mem (e := (column, value)) (List.mem_singleton_self _)
  have htuple : tupleTexts d r table (.ofList [(column, value)]) 0 [.ofList [(column, value)]] =
      (valueText d r table .insert column value).map fun text => [text] := by
    -- the row is compared with itself, so it cannot be refused for its columns
    have hsame : Row.sameColumns (.ofList [(column, value)]) (.ofList [(column, value)]) = true :=
      Row.sameColumns_iff.mpr (.refl _)
    rw [tupleTexts, tupleTexts, tupleText, hsame, hkeys, List.mapM_cons, List.mapM_nil, hfind]
    dsimp only
    cases valueText d r table .insert column value <;> rfl
  have hsome : ¬ (OrderedMap.ofList [(column, value)]).isEmpty = true := Bool.false_ne_true
  have hone : ¬ (([] : List Row) ≠ [] ∧ d = .sqlite) := fun h => h.1 rfl
  rw [insertStatement_cons htable, if_neg hsome, if_neg hone, htuple, hkeys]
  cases valueText d r table .insert column value <;> rfl

/-- a column takes a literal of a type that meets its own, and it is written as it stands -/
theorem valueText_literal {d : Dialect} {r : Relation} {table column : String} {use : TypedUse} {value : Operand}
    {target : Expr} {l : Literal} (hcolumn : r.column? column = some target) (hvalue : value.toExpr = .ok (.literal l))
    (hjoin : target.type.joinable l.type = true) : valueText d r table use column value = .ok (l.sqlText d) :=
  valueText_eq_ok.mpr ⟨_, _, ⟨hcolumn, hvalue, rfl, hjoin⟩, rfl⟩

/-! ## both -/

namespace TableDeclaration

/-- One text stands for the operand and for the default of the column `b`: in what is written to the table, and in
what creates the table with `b` between the columns before and after it. -/
structure WritesAlike (c : TableDeclaration) (r : Relation) (d : Dialect) (before : List Attribute) (b : Attribute)
    (after : List Attribute) (operand : Operand) (text : String) : Prop where
  /-- whatever writes the operand writes the text -/
  item : ∀ table use, valueText d r table use b.name operand = .ok text
  insert : Command.compile d (.insert r [.ofList [(b.name, operand)]])
    = .ok { sql := insertText d c.name [b.name] [text] }
  /-- the other columns are defined as ever -/
  create : ∀ other : Serial, ∃ r' front back,
    run { c with serial := other, attributes := before ++ b :: after } = .ok r' ∧
      List.Forall₂ (fun a definition => definitionText d a = .ok definition) before front ∧
      List.Forall₂ (fun a definition => definitionText d a = .ok definition) after back ∧
      Command.compile d (.create r') = .ok
        { sql := createText c.name (front ++ (definitionHead d b ++ (" default " ++ text)) :: back) }

theorem forall₂_append_cons_left {α β : Type} {R : α → β → Prop} {l₁ l₂ : List α} {a : α} {bs : List β}
    (h : List.Forall₂ R (l₁ ++ a :: l₂) bs) :
    ∃ front b back, bs = front ++ b :: back ∧ List.Forall₂ R l₁ front ∧ R a b ∧ List.Forall₂ R l₂ back := by
  induction l₁ generalizing bs with
  | nil =>
    obtain ⟨b, back, hb, hback, rfl⟩ := List.forall₂_cons_left_iff.mp h
    exact ⟨[], b, back, rfl, .nil, hb, hback⟩
  | cons x l₁ ih =>
    obtain ⟨y, ys, hy, hys, rfl⟩ := List.forall₂_cons_left_iff.mp h
    obtain ⟨front, b, back, rfl, hfront, hb, hback⟩ := ih hys
    exact ⟨y :: front, b, back, rfl, .cons hy hfront, hb, hback⟩

variable {c : TableDeclaration} {r : Relation} {before after : List Attribute} {a b : Attribute}

/-- a column may stand in the place of another one of its name, and its default is written behind its definition -/
theorem creates_default (columns : c.attributes = before ++ a :: after) (made : c.run = .ok r) (hname : b.name = a.name)
    (declared : ∀ x ∈ before ++ b :: after, x.Declared) {v : Value} {l : Literal} (hv : b.qualifiers.default = some v)
    (hl : v.toLiteral = .ok l) (d : Dialect) (other : Serial) :
    ∃ r' front back, run { c with serial := other, attributes := before ++ b :: after } = .ok r' ∧
      List.Forall₂ (fun a definition => definitionText d a = .ok definition) before front ∧
      List.Forall₂ (fun a definition => definitionText d a = .ok definition) after back ∧
      Command.compile d (.create r') = .ok
        { sql := createText c.name (front ++ (definitionHead d b ++ (" default " ++ l.sqlText d)) :: back) } := by
  obtain ⟨hid, hnodup, -, -⟩ := Relation.table_eq_ok.mp made
  have hnames : (before ++ b :: after).map Attribute.name = c.attributes.map Attribute.name := by
    rw [columns, List.map_append, List.map_append, List.map_cons, List.map_cons, hname]
  obtain ⟨r', made'⟩ : ∃ r', run { c with serial := other, attributes := before ++ b :: after } = .ok r' :=
    ⟨_, Relation.table_eq_ok.mpr ⟨hid, hnames ▸ hnodup, by simp, rfl⟩⟩
  obtain ⟨definitions, hdefinitions, hcreate, -⟩ := creates declared made' d
  rw [attributes_of_run made', bound, List.forall₂_map_left_iff] at hdefinitions
  obtain ⟨front, definition, back, rfl, hfront, hdefinition, hback⟩ := forall₂_append_cons_left hdefinitions
  have htext : definitionText d b = .ok (definitionHead d b ++ (" default " ++ l.sqlText d)) :=
    definitionText_eq_ok.mpr (.inr ⟨v, l, hv, hl, rfl⟩)
  obtain rfl : _ = definition := Except.ok.inj (htext.symm.trans hdefinition)
  exact ⟨r', front, back, made', hfront, hback, hcreate⟩

section

variable {serial own : Serial} {name : String} {t : DataType} (plain : Attribute.declare serial name t {} = .ok a)
  (columns : c.attributes = before ++ a :: after) (made : c.run = .ok r)

include plain columns made

theorem column?_of_declare : ∃ target, r.column? name = some target ∧ target.type = t := by
  obtain ⟨-, -, -, rfl⟩ := Attribute.declare_eq_ok.mp plain
  exact ⟨_, column?_of_run made (columns ▸ List.mem_append_right before List.mem_cons_self), rfl⟩

theorem exists_insert_iff (d : Dialect) (v : Value) :
    (∃ s, Command.compile d (.insert r [.ofList [(name, .value v)]]) = .ok s) ↔
      ∃ l, v.toLiteral = .ok l ∧ t.joinable l.type = true := by
  obtain ⟨column, hcolumn, rfl⟩ := column?_of_declare plain columns made
  have hinsert : Command.compile d (.insert r [.ofList [(name, .value v)]]) = _ :=
    insertStatement_single (c.name?_of_run made) d name (.value v)
  simp only [hinsert, map_eq_ok, valueText_eq_ok]
  constructor
  · rintro ⟨-, -, ⟨target, e, htakes, -⟩, -⟩
    obtain ⟨l, hl, rfl⟩ := map_eq_ok.mp htakes.expr
    obtain rfl := Option.some.inj (hcolumn.symm.trans htakes.column)
    exact ⟨l, hl, htakes.joinable⟩
  · rintro ⟨l, hl, hjoin⟩
    exact ⟨_, _, ⟨_, _, ⟨hcolumn, map_eq_ok.mpr ⟨l, hl, rfl⟩, rfl, hjoin⟩, rfl⟩, rfl⟩

/-- an accepted default and an operand are written alike if their literals have the same text -/
theorem WritesAlike.of_literals (declared : ∀ x ∈ before ++ after, x.Declared) (d : Dialect) {v : Value} {l m : Literal}
    {operand : Operand} (hb : Attribute.declare own name t { default := some v } = .ok b) (hl : v.toLiteral = .ok l)
    (hoperand : operand.toExpr = .ok (.literal m)) (hjoin : t.joinable m.type = true)
    (htext : m.sqlText d = l.sqlText d) : c.WritesAlike r d before b after operand (l.sqlText d) := by
  obtain ⟨column, hcolumn, rfl⟩ := column?_of_declare plain columns made
  have hdeclared : ∀ x ∈ before ++ b :: after, x.Declared := by
    obtain ⟨hbefore, hafter⟩ := List.forall_mem_append.mp declared
    exact List.forall_mem_append.mpr ⟨hbefore, List.forall_mem_cons.mpr ⟨.declare hb, hafter⟩⟩
  obtain ⟨-, -, -, ha⟩ := Attribute.declare_eq_ok.mp plain
  obtain ⟨-, rfl⟩ := (Attribute.declare_default_eq_ok plain).mp hb
  have hname : a.name = name := ha ▸ rfl
  have hitem (table : String) (use : TypedUse) :
      valueText d r table use (a.withDefault own v).name operand = .ok (l.sqlText d) := by
    rw [← htext]
    exact valueText_literal (hname ▸ hcolumn) hoperand hjoin
  exact
    { item := hitem
      insert := (insertStatement_single (c.name?_of_run made) d _ operand).trans (by rw [hitem]; rfl)
      create := creates_default (b := a.withDefault own v) columns made rfl hdeclared rfl hl d }

/-- **Defaults and written values agree.**  In a table with a column that has no options of its own, the insertion of
a host value into that column is accepted if and only if the column could be declared with the value as its default,
unless it is of an enumeration.  A label is accepted as the default of a domain over an enumeration if and only if it
is a value of the domain.  Each time the statement that inserts the value and the statement that creates the table
with the default write the same text for it, truth values as one and zero. -/
theorem defaults_agree (declared : ∀ x ∈ before ++ after, x.Declared) (d : Dialect) (own : Serial) :
    (t.underlying.kind ≠ .enum → ∀ v : Value,
      ((∃ b, Attribute.declare own name t { default := some v } = .ok b) ↔
        ∃ s, Command.compile d (.insert r [.ofList [(name, .value v)]]) = .ok s) ∧
      ∀ b, Attribute.declare own name t { default := some v } = .ok b →
        ∃ l, v.toLiteral = .ok l ∧ c.WritesAlike r d before b after (.value v) (l.sqlText d) ∧
          ∀ truth, v = .bool truth → l.sqlText d = if truth then "1" else "0") ∧
      ∀ (domain : Domain) (labels : List String), t = .domain domain → domain.base = .enum labels →
        ∀ label : String,
          ((∃ b, Attribute.declare own name t { default := some (.string label) } = .ok b) ↔
            ∃ e, domain.value label = .ok e) ∧
          ∀ b e, Attribute.declare own name t { default := some (.string label) } = .ok b →
            domain.value label = .ok e → c.WritesAlike r d before b after (.label e) (quote label) := by
  have hdeclare (v : Value) : (∃ b, Attribute.declare own name t { default := some v } = .ok b) ↔
      t.checkDefault v = .ok () := by
    simp only [Attribute.declare_default_eq_ok plain, exists_and_left, exists_eq', and_true]
  refine ⟨fun hkind v => ⟨?_, fun b hb => ?_⟩, ?_⟩
  · rw [hdeclare, DataType.checkDefault_eq_ok hkind, exists_insert_iff plain columns made]
  · obtain ⟨l, hl, hjoin⟩ := (DataType.checkDefault_eq_ok hkind).mp ((hdeclare v).mp ⟨b, hb⟩)
    have hoperand : (Operand.value v).toExpr = .ok (.literal l) := map_eq_ok.mpr ⟨l, hl, rfl⟩
    refine ⟨l, hl, .of_literals plain columns made declared d hb hl hoperand hjoin rfl, ?_⟩
    rintro truth rfl
    obtain rfl := Except.ok.inj hl
    exact d.booleanLiteral_eq truth
  · rintro domain labels rfl hbase label
    have hvalue (e : EnumValue) : domain.value label = .ok e ↔ label ∈ labels ∧ ⟨domain, label⟩ = e := by
      unfold Domain.value
      rw [hbase]
      by_cases hlabel : label ∈ labels <;> simp [BaseType.labels, hlabel]
    refine ⟨?_, fun b e hb he => ?_⟩
    · have hlabels : (DataType.domain domain).underlying = .enum labels := hbase
      rw [hdeclare, DataType.checkDefault_label hlabels]
      simp only [hvalue, exists_and_left, exists_eq', and_true]
    · obtain ⟨-, rfl⟩ := (hvalue e).mp he
      have hjoin : DataType.joinable (.domain domain) (.domain domain) = true := by
        rw [DataType.joinable, DataType.join_self]
        rfl
      exact .of_literals (l := .string label) plain columns made declared d hb rfl rfl hjoin rfl

end

section

def sentColumn : Attribute := ⟨"sent", .boolean, {}, .loose ⟨7⟩⟩

def statusColumn : Attribute := ⟨"status", .domain Relation.payment, {}, .loose ⟨8⟩⟩

/-- invoices by what was done about them -/
def invoices : TableDeclaration where
  serial := ⟨9⟩
  name := "invoices"
  attributes := [sentColumn, statusColumn]
  options := ∅

/-- the hypotheses of `defaults_agree` can be met: by a column of truth values and by one of labels -/
theorem defaults_agree_invoices : ∃ r, invoices.run = .ok r ∧
    (∃ b, Attribute.declare ⟨10⟩ "sent" .boolean { default := some (.bool true) } = .ok b ∧
      invoices.WritesAlike r .sqlite [] b [statusColumn] (.value (.bool true)) "1") ∧
    ∃ b, Attribute.declare ⟨10⟩ "status" (.domain Relation.payment) { default := some (.string "paid") } = .ok b ∧
      invoices.WritesAlike r .postgres [sentColumn] b [] (.label ⟨Relation.payment, "paid"⟩) (quote "paid") := by
  have hsent : Attribute.declare ⟨7⟩ "sent" .boolean {} = .ok sentColumn := rfl
  have hstatus : Attribute.declare ⟨8⟩ "status" (.domain Relation.payment) {} = .ok statusColumn := rfl
  obtain ⟨r, made⟩ : ∃ r, invoices.run = .ok r := ⟨_, rfl⟩
  have hfirst : invoices.attributes = [] ++ sentColumn :: [statusColumn] := rfl
  have hsecond : invoices.attributes = [sentColumn] ++ statusColumn :: [] := rfl
  obtain ⟨hvalues, -⟩ :=
    defaults_agree hsent hfirst made (List.forall_mem_singleton.mpr (.declare hstatus)) .sqlite ⟨10⟩
  obtain ⟨-, hlabels⟩ :=
    defaults_agree hstatus hsecond made (List.forall_mem_singleton.mpr (.declare hsent)) .postgres ⟨10⟩
  refine ⟨r, made, ⟨_, rfl, ?_⟩, ⟨_, rfl, ?_⟩⟩
  · obtain ⟨l, -, halike, htext⟩ := (hvalues nofun (.bool true)).2 _ rfl
    rwa [htext true rfl] at halike
  · exact (hlabels Relation.payment _ rfl rfl "paid").2 _ _ rfl rfl

end

end TableDeclaration

end TableAlgebra
