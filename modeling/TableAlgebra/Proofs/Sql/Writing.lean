import Mathlib.Data.List.Perm.Basic
import TableAlgebra.Proofs.OrderedMap
import TableAlgebra.Proofs.Sql.Definition

/-!
# When a table is written to

A row sets columns to operands.  A column takes an operand that is in scope of the table and whose type meets
that of the column; a condition is in scope and a truth value.  An insertion, an update or a removal is accepted
if and only if it consists of such values and conditions, and of rows that fit each other.

* `Relation.Takes`       a column takes an operand, which stands for an expression;
* `Relation.Keeps`       a condition can decide which rows are written;
* `Row.sameColumns_iff`  rows fit each other if they set the same columns;
* `exists_insertStatement`, `exists_updateStatement`, `exists_removeStatement`   what is accepted.
-/

namespace TableAlgebra

variable {d : Dialect} {r : Relation}

/-! ## values and conditions -/

theorem valueText_eq {table column : String} {use : TypedUse} {value : Operand} {target e : Expr}
    (hcolumn : r.column? column = some target) (he : value.toExpr = .ok e) :
    valueText d r table use column value =
      if r.valid e then
        if target.type.joinable e.type then .ok (exprText d false e)
        else .error (.algebra (.incompatibleTypes use target.type e.type))
      else .error (.algebra (.outOfScope .writeValue)) := by
  unfold valueText
  rw [hcolumn, he]
  dsimp only [pure, Except.pure, bind, Except.bind, Except.mapError]
  cases r.valid e <;> cases target.type.joinable e.type <;> rfl

theorem conditionText_eq (r : Relation) (place : Place) (condition : Expr) :
    conditionText d r place condition =
      if r.valid condition then
        if condition.type.isBoolean then .ok (exprText d false condition)
        else .error (.algebra (.notBoolean place condition.type))
      else .error (.algebra (.outOfScope place)) := by
  unfold conditionText
  cases r.valid condition <;> cases condition.type.isBoolean <;> rfl

/-- The column takes the operand: it is a column of the relation and holds `target`, and the operand stands for
`e`, which is in scope and of a type that meets that of the column. -/
structure Relation.Takes (r : Relation) (column : String) (value : Operand) (target e : Expr) : Prop where
  column : r.column? column = some target
  expr : value.toExpr = .ok e
  valid : r.valid e = true
  joinable : target.type.joinable e.type = true

structure Relation.Keeps (r : Relation) (condition : Expr) : Prop where
  valid : r.valid condition = true
  boolean : condition.type.isBoolean = true

theorem valueText_eq_ok {table column text : String} {use : TypedUse} {value : Operand} :
    valueText d r table use column value = .ok text ↔
      ∃ target e, r.Takes column value target e ∧ exprText d false e = text := by
  constructor
  · intro h
    cases hcolumn : r.column? column with
    | none =>
      rw [valueText, hcolumn] at h
      exact nomatch h
    | some target =>
      cases hexpr : value.toExpr with
      | error error =>
        rw [valueText, hcolumn, hexpr] at h
        exact nomatch h
      | ok e =>
        rw [valueText_eq hcolumn hexpr] at h
        split at h
        · rename_i hvalid
          split at h
          · rename_i hjoin
            exact ⟨target, e, ⟨hcolumn, hexpr, hvalid, hjoin⟩, Except.ok.inj h⟩
          · exact nomatch h
        · exact nomatch h
  · rintro ⟨target, e, h, rfl⟩
    rw [valueText_eq h.column h.expr, if_pos h.valid, if_pos h.joinable]

theorem exists_valueText (table : String) (use : TypedUse) {column : String} {value : Operand} :
    (∃ text, valueText d r table use column value = .ok text) ↔ ∃ target e, r.Takes column value target e := by
  simp only [valueText_eq_ok]
  exact ⟨fun ⟨_, target, e, h, _⟩ => ⟨target, e, h⟩, fun ⟨target, e, h⟩ => ⟨_, target, e, h, rfl⟩⟩

theorem conditionText_eq_ok {place : Place} {condition : Expr} {text : String} :
    conditionText d r place condition = .ok text ↔ r.Keeps condition ∧ exprText d false condition = text := by
  rw [conditionText_eq]
  constructor
  · intro h
    split at h
    · rename_i hvalid
      split at h
      · rename_i hboolean
        exact ⟨⟨hvalid, hboolean⟩, Except.ok.inj h⟩
      · exact nomatch h
    · exact nomatch h
  · rintro ⟨h, rfl⟩
    rw [if_pos h.valid, if_pos h.boolean]

theorem exists_whereText (place : Place) {condition : Option Expr} :
    (∃ text, whereText d r place condition = .ok text) ↔ ∀ c ∈ condition, r.Keeps c := by
  cases condition with
  | none => exact ⟨fun _ _ hc => (nomatch hc), fun _ => ⟨"", rfl⟩⟩
  | some c =>
    have hmap : (∃ text, whereText d r place (some c) = .ok text) ↔ ∃ text, conditionText d r place c = .ok text := by
      unfold whereText
      dsimp only
      cases conditionText d r place c <;> simp [Except.map]
    rw [hmap]
    simp only [conditionText_eq_ok, Option.mem_some_iff, forall_eq', exists_and_left, exists_eq', and_true]

/-! ## rows -/

theorem Row.sameColumns_iff {row other : Row} : row.sameColumns other = true ↔ row.keys.Perm other.keys := by
  have hlength (m : Row) : m.size = m.keys.length := (List.length_map _).symm
  unfold sameColumns
  simp only [Bool.and_eq_true, beq_iff_eq, List.all_eq_true, OrderedMap.contains_iff, hlength]
  constructor
  · rintro ⟨hsize, hsub⟩
    have hsubperm := List.subperm_of_subset other.nodup_keys hsub
    exact (hsubperm.perm_of_length_le (Nat.le_of_eq hsize)).symm
  · intro h
    exact ⟨h.length_eq, fun key hkey => h.mem_iff.mpr hkey⟩

/-- the row sets columns of the relation to operands that they take -/
def Relation.TakesRow (r : Relation) (row : Row) : Prop :=
  ∀ entry ∈ row.entries, ∃ target e, r.Takes entry.1 entry.2 target e

theorem exists_tupleText (table : String) (index : Nat) {first row : Row} :
    (∃ text, tupleText d r table first row index = .ok text) ↔ row.keys.Perm first.keys ∧ r.TakesRow row := by
  have hchecked : ¬ ((!row.sameColumns first) = true) ↔ row.keys.Perm first.keys := by
    rw [Bool.not_eq_true, Bool.not_eq_false', Row.sameColumns_iff]
  unfold tupleText
  refine exists_check_eq_ok.trans ?_
  rw [hchecked, exists_bind_pure_eq_ok, exists_mapM_iff]
  refine and_congr_right fun hperm => ?_
  -- the columns of the first row are those of this one, and each of them is found under its own name
  constructor
  · intro h entry hentry
    have hkey : entry.1 ∈ first.keys := hperm.mem_iff.mp (List.mem_map_of_mem hentry)
    have htext := h entry.1 hkey
    rw [OrderedMap.find?_of_mem hentry] at htext
    exact (exists_valueText table .insert).mp htext
  · intro h column hcolumn
    obtain ⟨entry, hentry, rfl⟩ := List.mem_map.mp (hperm.mem_iff.mpr hcolumn)
    rw [OrderedMap.find?_of_mem hentry]
    exact (exists_valueText table .insert).mpr (h entry hentry)

theorem exists_tupleTexts (table : String) (index : Nat) {first : Row} {rows : List Row} :
    (∃ texts, tupleTexts d r table first index rows = .ok texts) ↔
      ∀ row ∈ rows, row.keys.Perm first.keys ∧ r.TakesRow row := by
  induction rows generalizing index with
  | nil => simp [tupleTexts]
  | cons row rows ih =>
    rw [List.forall_mem_cons, ← exists_tupleText table index, ← ih (index + 1)]
    rw [tupleTexts, exists_bind_eq_ok]
    constructor
    · rintro ⟨text, htext, h⟩
      obtain ⟨rest, hrest, -⟩ := exists_bind_eq_ok.mp h
      exact ⟨⟨text, htext⟩, ⟨rest, hrest⟩⟩
    · rintro ⟨⟨text, htext⟩, ⟨rest, hrest⟩⟩
      exact ⟨text, htext, exists_bind_eq_ok.mpr ⟨rest, hrest, _, rfl⟩⟩

/-! ## statements -/

theorem requireWritable_eq_ok {kind : WriteKind} {name : String} :
    requireWritable r kind = .ok name ↔ r.name? = some name := by
  unfold requireWritable
  cases r.name? <;> simp

theorem isTable_iff : r.isTable = true ↔ ∃ name, r.name? = some name := by
  unfold Relation.isTable Relation.name?
  cases r.kind <;> simp

/-- An insertion is accepted if the relation is a table, there is a first row that sets a column, there are not more
rows than the dialect takes, and every row sets the columns of the first one to operands that they take. -/
theorem exists_insertStatement {rows : List Row} :
    (∃ s, insertStatement d r rows = .ok s) ↔ r.isTable = true ∧ ∃ first rest, rows = first :: rest ∧
      first.isEmpty = false ∧ (rest = [] ∨ d.multiRow = true) ∧
      ∀ row ∈ rows, row.keys.Perm first.keys ∧ r.TakesRow row := by
  have hlimit (first : Row) (rest : List Row) :
      ¬ (decide ((first :: rest).length > 1) && !d.multiRow) = true ↔ rest = [] ∨ d.multiRow = true := by
    cases rest <;> simp
  rw [isTable_iff]
  unfold insertStatement
  rw [exists_bind_eq_ok]
  simp only [requireWritable_eq_ok]
  constructor
  · rintro ⟨name, hname, h⟩
    cases rows with
    | nil => exact nomatch h
    | cons first rest =>
      obtain ⟨hempty, h⟩ := exists_check_eq_ok.mp h
      obtain ⟨hmany, h⟩ := exists_check_eq_ok.mp h
      obtain ⟨tuples, htuples, -⟩ := exists_bind_eq_ok.mp h
      exact ⟨⟨name, hname⟩, first, rest, rfl, Bool.not_eq_true _ ▸ hempty, (hlimit first rest).mp hmany,
        (exists_tupleTexts name 0).mp ⟨tuples, htuples⟩⟩
  · rintro ⟨⟨name, hname⟩, first, rest, rfl, hempty, hmany, hrows⟩
    obtain ⟨tuples, htuples⟩ := (exists_tupleTexts name 0).mpr hrows
    refine ⟨name, hname, exists_check_eq_ok.mpr ⟨by simp [hempty], ?_⟩⟩
    refine exists_check_eq_ok.mpr ⟨(hlimit first rest).mpr hmany, ?_⟩
    exact exists_bind_eq_ok.mpr ⟨tuples, htuples, _, rfl⟩

theorem exists_updateStatement {row : Row} {condition : Option Expr} :
    (∃ s, updateStatement d r row condition = .ok s) ↔
      r.isTable = true ∧ row.isEmpty = false ∧ r.TakesRow row ∧ ∀ c ∈ condition, r.Keeps c := by
  have hassign (name : String) (entry : String × Operand) :
      (∃ text, (do return entry.1 ++ " = " ++ (← valueText d r name .update entry.1 entry.2) :
        Except CompileError String) = .ok text) ↔ ∃ target e, r.Takes entry.1 entry.2 target e := by
    rw [exists_bind_eq_ok, ← exists_valueText name .update]
    exact ⟨fun ⟨text, h, _⟩ => ⟨text, h⟩, fun ⟨text, h⟩ => ⟨text, h, _, rfl⟩⟩
  rw [isTable_iff]
  unfold updateStatement
  rw [exists_bind_eq_ok]
  simp only [requireWritable_eq_ok]
  constructor
  · rintro ⟨name, hname, h⟩
    obtain ⟨hempty, h⟩ := exists_check_eq_ok.mp h
    obtain ⟨assignments, hassignments, h⟩ := exists_bind_eq_ok.mp h
    obtain ⟨text, htext, -⟩ := exists_bind_eq_ok.mp h
    have hrow := exists_mapM_iff.mp ⟨assignments, hassignments⟩
    exact ⟨⟨name, hname⟩, Bool.not_eq_true _ ▸ hempty,
      fun entry hentry => (hassign name entry).mp (hrow entry hentry),
      (exists_whereText .updateCondition).mp ⟨text, htext⟩⟩
  · rintro ⟨⟨name, hname⟩, hempty, hrow, hcondition⟩
    obtain ⟨assignments, hassignments⟩ :=
      exists_mapM_iff.mpr fun entry hentry => (hassign name entry).mpr (hrow entry hentry)
    obtain ⟨text, htext⟩ := (exists_whereText .updateCondition).mpr hcondition
    refine ⟨name, hname, exists_check_eq_ok.mpr ⟨by simp [hempty], ?_⟩⟩
    exact exists_bind_eq_ok.mpr ⟨assignments, hassignments, exists_bind_eq_ok.mpr ⟨text, htext, _, rfl⟩⟩

theorem exists_removeStatement {condition : Option Expr} :
    (∃ s, removeStatement d r condition = .ok s) ↔ r.isTable = true ∧ ∀ c ∈ condition, r.Keeps c := by
  rw [isTable_iff]
  unfold removeStatement
  rw [exists_bind_eq_ok]
  simp only [requireWritable_eq_ok]
  constructor
  · rintro ⟨name, hname, h⟩
    obtain ⟨text, htext, -⟩ := exists_bind_eq_ok.mp h
    exact ⟨⟨name, hname⟩, (exists_whereText .removeCondition).mp ⟨text, htext⟩⟩
  · rintro ⟨⟨name, hname⟩, hcondition⟩
    obtain ⟨text, htext⟩ := (exists_whereText .removeCondition).mpr hcondition
    exact ⟨name, hname, exists_bind_eq_ok.mpr ⟨text, htext, _, rfl⟩⟩

end TableAlgebra
