import TableAlgebra.Proofs.Relation.Typing
import TableAlgebra.Proofs.Sql.Assignment

/-!
# What the clauses let in

Restrictions, predicates of joins, grouping keys, written values and conditions are checked for scope and for
type, and for nothing else.  So an aggregate may stand in each of them, and a value of an insertion may read the
columns of the table.  What types rule out is an aggregate in the place of a truth value: it is a number.

* `Expr.parts`, `Expr.Decides`                 a condition, taken apart at its connectives;
* `Relation.Clauses`                           what the entry points ask for, and what they let in;
* `Relation.Derived.clauses_by_scope`          all relations and all that is nested in them are checked so;
* `Relation.Derived.not_clauses_by_aggregates`   an aggregate or a column gets into each of the clauses.
-/

namespace TableAlgebra

/-! ## conditions -/

namespace DataType

theorem isBoolean_of_join {t u v : DataType} (h : t.join u = some v) (hv : v.isBoolean = true) :
    t.isBoolean = true ∧ u.isBoolean = true := by
  have hcases := joinable_cases (Option.isSome_iff_exists.mpr ⟨v, h⟩)
  unfold isBoolean at hv ⊢
  rw [beq_iff_eq] at hv ⊢
  rw [beq_iff_eq]
  have hsame : t.underlying.kind = .boolean ∨ u.underlying.kind = .boolean := by
    rcases eq_or_eq_of_join h with rfl | rfl
    · exact .inl hv
    · exact .inr hv
  rcases hcases with hle | ⟨rfl, hu⟩ | ⟨ht, hu⟩
  · rcases BaseType.le_iff.mp hle with heq | ⟨hu, ht⟩
    · rw [heq, or_self] at hsame
      rw [heq]
      exact ⟨hsame, hsame⟩
    · rw [hu, ht] at hsame
      exact absurd hsame (by decide)
  · rw [hu] at hsame
    exact absurd hsame (by decide)
  · rw [ht, hu] at hsame
    exact absurd hsame (by decide)

end DataType

namespace Expr

/-- what connectives combine, at any depth of connectives -/
def parts : Expr → List Expr
  | binary (.logic _) _ l r => l.parts ++ r.parts
  | e => [e]

/-- the parts of a condition are truth values and no aggregates -/
def Decides (e : Expr) : Prop := ∀ p ∈ e.parts, p.type.isBoolean = true ∧ p.isAggregate = false

/-- there is an aggregate in the expression, relations of membership tests apart -/
def Aggregates (e : Expr) : Prop := ∃ n ∈ e.nodes, n.isAggregate = true

/-- an aggregate in the expression is taken over another one -/
def NestsAggregates (e : Expr) : Prop := ∃ f t x, aggregate f t x ∈ e.nodes ∧ x.Aggregates

theorem type_of_isAggregate {e : Expr} (h : e.Typed) (haggregate : e.isAggregate = true) : e.type = .number := by
  cases e with
  | aggregate f t x =>
    have hruled := (typed_aggregate.mp h).1
    cases f with
    | count => exact hruled
    | avg => exact hruled.1
  | _ => exact absurd haggregate Bool.false_ne_true

theorem Typed.isAggregate_eq_false {e : Expr} (h : e.Typed) (hboolean : e.type.isBoolean = true) :
    e.isAggregate = false := by
  by_contra haggregate
  rw [type_of_isAggregate h (Bool.eq_true_of_not_eq_false haggregate)] at hboolean
  exact absurd hboolean (by decide)

theorem Typed.decides : {e : Expr} → e.Typed → e.type.isBoolean = true → e.Decides
  | binary (.logic op) t l r, h, hboolean => by
    obtain ⟨⟨hjoin, -⟩, hl, hr⟩ := typed_binary.mp h
    obtain ⟨hbl, hbr⟩ := DataType.isBoolean_of_join hjoin hboolean
    exact List.forall_mem_append.mpr ⟨hl.decides hbl, hr.decides hbr⟩
  | binary (.compare _) _ _ _, _, hboolean => List.forall_mem_singleton.mpr ⟨hboolean, rfl⟩
  | binary (.arith _) _ _ _, _, hboolean => List.forall_mem_singleton.mpr ⟨hboolean, rfl⟩
  | literal _, _, hboolean => List.forall_mem_singleton.mpr ⟨hboolean, rfl⟩
  | attr _, _, hboolean => List.forall_mem_singleton.mpr ⟨hboolean, rfl⟩
  | member _ _ _, _, hboolean => List.forall_mem_singleton.mpr ⟨hboolean, rfl⟩
  | aggregate _ _ _, h, hboolean => List.forall_mem_singleton.mpr ⟨hboolean, h.isAggregate_eq_false hboolean⟩

end Expr

/-! ## entry points -/

namespace Relation

variable {r : Relation}

/-- A restriction, a predicate of a join, a grouping key, a written value and a condition are accepted if their
attributes are columns in sight and their type is right, whatever else they are made of. -/
structure ChecksScope (r : Relation) : Prop where
  restrict : ∀ p, (∃ s, r.restrict (some p) = .ok s) ↔
    (∀ a ∈ p.leaves, r.owns a = true) ∧ p.type.isBoolean = true
  join : ∀ s on, (∃ j, r.join s on = .ok j) ↔ on.type.isBoolean = true ∧
    (∀ key ∈ s.keys, key ∉ r.keys) ∧ ∀ a ∈ on.leaves, r.owns a = true ∨ s.owns a = true
  group : ∀ key, (∃ s, r.group key = .ok s) ↔ ∀ a ∈ key.leaves, r.owns a = true
  value : ∀ d table use column v, (∃ text, valueText d r table use column v = .ok text) ↔
    ∃ target e, r.column? column = some target ∧ v.toExpr = .ok e ∧ (∀ a ∈ e.leaves, r.owns a = true) ∧
      target.type.joinable e.type = true
  condition : ∀ d place c, (∃ text, conditionText d r place c = .ok text) ↔
    (∀ a ∈ c.leaves, r.owns a = true) ∧ c.type.isBoolean = true

theorem checksScope (r : Relation) : r.ChecksScope where
  restrict p := by
    show (∃ s, r.filter p = .ok s) ↔ _
    simp only [filter_eq_ok, exists_and_left, exists_eq', and_true, valid_iff_owns]
  join s on := by
    have howns (a : Attribute) : Column.exposes (r.columns ++ s.columns) a = true ↔
        r.owns a = true ∨ s.owns a = true := by
      rw [Column.exposes_append, Bool.or_eq_true]
      rfl
    simp only [join_eq_ok, exists_and_left, exists_eq_left', valid, Expr.inScope_iff, howns]
  group key := by
    simp only [group_eq_ok, exists_and_left, exists_eq', and_true, valid_iff_owns]
  value d table use column v := by
    rw [exists_valueText]
    refine exists₂_congr fun target e => ?_
    rw [← valid_iff_owns]
    exact ⟨fun h => ⟨h.column, h.expr, h.valid, h.joinable⟩, fun ⟨h₁, h₂, h₃, h₄⟩ => ⟨h₁, h₂, h₃, h₄⟩⟩
  condition d place c := by
    simp only [conditionText_eq_ok, exists_and_left, exists_eq', and_true, ← valid_iff_owns]
    exact ⟨fun h => ⟨h.valid, h.boolean⟩, fun h => ⟨h.1, h.2⟩⟩

/-- the row sets columns to values over the table's own columns; one that is an aggregate goes to a column of
numbers or of plain integers -/
def Writes (r : Relation) (row : Row) : Prop :=
  ∀ entry ∈ row.entries, ∃ target e, r.column? entry.1 = some target ∧ entry.2.toExpr = .ok e ∧
    (∀ a ∈ e.leaves, r.owns a = true) ∧
    (e.Typed → e.isAggregate = true → target.type.underlying = .number ∨ target.type = .integer)

theorem TakesRow.writes {row : Row} (h : r.TakesRow row) : r.Writes row := by
  intro entry hentry
  obtain ⟨target, e, htakes⟩ := h entry hentry
  refine ⟨target, e, htakes.column, htakes.expr, valid_iff_owns.mp htakes.valid, fun htyped haggregate => ?_⟩
  have hjoin := htakes.joinable
  rw [Expr.type_of_isAggregate htyped haggregate] at hjoin
  rcases DataType.joinable_cases hjoin with hle | ⟨hinteger, -⟩ | ⟨-, hkind⟩
  · rcases BaseType.le_iff.mp hle with heq | ⟨hnumber, -⟩
    · exact .inl heq.symm
    · exact nomatch hnumber
  · exact .inr hinteger
  · exact nomatch hkind

/-- the condition is over the table's own columns, and its parts are truth values and no aggregates -/
def Decided (r : Relation) (condition : Option Expr) : Prop :=
  ∀ c ∈ condition, (∀ a ∈ c.leaves, r.owns a = true) ∧ (c.Typed → c.Decides)

theorem decided_of_keeps {condition : Option Expr} (h : ∀ c ∈ condition, r.Keeps c) : r.Decided condition := by
  intro c hc
  have hkeeps := h c hc
  exact ⟨valid_iff_owns.mp hkeeps.valid, fun htyped => htyped.decides hkeeps.boolean⟩

/-- what is let into a relation of typed expressions and into the statements that write to it -/
structure Clauses (r : Relation) : Prop where
  checks : r.ChecksScope
  restriction : ∀ e ∈ r.restrictions, e.Decides
  insert : ∀ d rows s, insertStatement d r rows = .ok s → ∀ row ∈ rows, r.Writes row
  update : ∀ d row condition s, updateStatement d r row condition = .ok s → r.Writes row ∧ r.Decided condition
  remove : ∀ d condition s, removeStatement d r condition = .ok s → r.Decided condition

theorem Typed.clauses (h : r.Typed) : r.Clauses where
  checks := r.checksScope
  restriction e he := by
    have hexpr : e ∈ r.exprs := mem_exprs.mpr (.inr (.inl he))
    exact (h.expr e hexpr).decides (h.restriction e he)
  insert d rows s hs row hrow := by
    obtain ⟨-, first, rest, -, -, -, hrows⟩ := exists_insertStatement.mp ⟨s, hs⟩
    exact (hrows row hrow).2.writes
  update d row condition s hs := by
    obtain ⟨-, -, hrow, hcondition⟩ := exists_updateStatement.mp ⟨s, hs⟩
    exact ⟨hrow.writes, decided_of_keeps hcondition⟩
  remove d condition s hs := decided_of_keeps (exists_removeStatement.mp ⟨s, hs⟩).2

theorem Derived.deepTyped {ds : List TableDeclaration} (h : Derived Expr.Typed ds r) : r.DeepTyped := by
  induction h with
  | table declared made => exact .table declared made
  | step tables _ given _ made ih ihnested =>
    exact ih.step (fun e he => ⟨given e he, ihnested e he⟩) made
  | join tables _ _ given _ made ihr ihs ihnested => exact ihr.join ihs ⟨given, ihnested⟩ made

/-- **Clauses are checked for scope and type.**  In a relation derived from typed expressions, and in all that is
nested in it, every clause and every written value lets in what has its attributes among the columns in sight and
is of the right type.  By its type, no part of a restriction or of a condition is an aggregate, and an aggregate is
written to columns of numbers and of plain integers only. -/
theorem Derived.clauses_by_scope {ds : List TableDeclaration} (h : Derived Expr.Typed ds r) {s : Relation}
    (hs : r.Nests s) : s.Clauses :=
  (h.deepTyped s hs).clauses

section

/-- the mean of a count exceeds one -/
def meanCounted : Expr :=
  .binary (.compare .gt) .boolean (.aggregate .avg .number personNumber.count) (.literal (.integer 1))

/-- persons, where the mean of their count exceeds one, grouped by their count -/
def countedPersons : Relation :=
  { personTable with kind := .derived, restrictions := [meanCounted], groups := [personNumber.count] }

theorem typed_personNumber : personNumber.Typed := Expr.typed_attr _

theorem typed_personCount : personNumber.count.Typed := Expr.typed_aggregate.mpr ⟨rfl, typed_personNumber⟩

theorem derived_countedPersons : Derived Expr.Typed [persons] countedPersons := by
  have hrestrict : (Operation.restrict (some meanCounted)).run personTable
      = .ok { countedPersons with groups := [] } := rfl
  have hgroup : (Operation.group personNumber.count).run { countedPersons with groups := [] }
      = .ok countedPersons := rfl
  have hmean : (Expr.aggregate .avg .number personNumber.count).Typed :=
    Expr.typed_aggregate.mpr ⟨⟨rfl, .number, rfl⟩, typed_personCount⟩
  have hcondition : meanCounted.Typed :=
    Expr.typed_binary.mpr ⟨⟨rfl, .number, rfl⟩, hmean, Expr.typed_literal _⟩
  have hrestricted := (derived_personTable _).step_one rfl hcondition rfl hrestrict
  exact hrestricted.step_one rfl typed_personCount rfl hgroup

/-- the hypotheses of `Derived.clauses_by_scope` can be met, by a relation with aggregates in its clauses -/
theorem clauses_by_scope_countedPersons :
    Derived Expr.Typed [persons] countedPersons ∧ countedPersons.Nests countedPersons ∧ countedPersons.Clauses :=
  ⟨derived_countedPersons, .refl, Derived.clauses_by_scope derived_countedPersons .refl⟩

/-! ## aggregates in all clauses -/

def everyPerson : Expr := .binary (.compare .eq) .boolean personNumber.count (.literal (.integer 2))

/-- the year of birth is set to an expression -/
def bornRow (e : Expr) : Row := .ofList [("born", .expr e)]

theorem takesRow_bornRow {e : Expr} (hvalid : personTable.valid e = true)
    (hjoin : DataType.integer.joinable e.type = true) : personTable.TakesRow (bornRow e) := by
  intro entry hentry
  rw [List.mem_singleton.mp hentry]
  exact ⟨_, e, rfl, rfl, hvalid, hjoin⟩

theorem aggregates_count (e : Expr) : e.count.Aggregates := ⟨e.count, List.mem_cons_self, rfl⟩

/-- **Aggregates get into every clause, and columns into inserted values.**  The mean of a count is compared in a
restriction, and a count in a predicate of a join and in the conditions of an update and a removal; a count is a
grouping key and is written by an insertion and an update, and an insertion writes a column of the table. -/
theorem Derived.not_clauses_by_aggregates :
    (¬ ∀ ds r, Derived Expr.Typed ds r → ∀ e ∈ r.restrictions, ¬ e.Aggregates) ∧
      (¬ ∀ ds r, Derived Expr.Typed ds r → ∀ e ∈ r.groups, ¬ e.Aggregates) ∧
      (¬ ∀ ds r, Derived Expr.Typed ds r → ∀ e ∈ r.exprs, ¬ e.NestsAggregates) ∧
      (¬ ∀ (r s : Relation) (on : Expr), (∃ j, r.join s on = .ok j) → ¬ on.Aggregates) ∧
      (¬ ∀ d r row, (∃ s, insertStatement d r [row] = .ok s) →
        ∀ entry ∈ row.entries, ∀ e, entry.2.toExpr = .ok e → ¬ e.Aggregates) ∧
      (¬ ∀ d r row, (∃ s, insertStatement d r [row] = .ok s) →
        ∀ entry ∈ row.entries, ∀ e, entry.2.toExpr = .ok e → e.leaves = []) ∧
      (¬ ∀ d r row condition, (∃ s, updateStatement d r row condition = .ok s) →
        ∀ entry ∈ row.entries, ∀ e, entry.2.toExpr = .ok e → ¬ e.Aggregates) ∧
      (¬ ∀ d r row c, (∃ s, updateStatement d r row (some c) = .ok s) → ¬ c.Aggregates) ∧
      ¬ ∀ d r c, (∃ s, removeStatement d r (some c) = .ok s) → ¬ c.Aggregates := by
  have hmany : everyPerson.Aggregates := ⟨personNumber.count, List.mem_cons_of_mem _ List.mem_cons_self, rfl⟩
  have hkeeps : ∀ c ∈ some everyPerson, personTable.Keeps c := by
    intro c hc
    rw [← Option.mem_some.mp hc]
    exact ⟨rfl, rfl⟩
  have hcount : personTable.TakesRow (bornRow personNumber.count) := takesRow_bornRow rfl rfl
  have hcolumn : personTable.TakesRow (bornRow personNumber) := takesRow_bornRow rfl rfl
  refine ⟨fun h => ?_, fun h => ?_, fun h => ?_, fun h => ?_, fun h => ?_, fun h => ?_, fun h => ?_, fun h => ?_,
    fun h => ?_⟩
  · exact h _ _ derived_countedPersons _ List.mem_cons_self ⟨_, List.mem_cons_of_mem _ List.mem_cons_self, rfl⟩
  · exact h _ _ derived_countedPersons _ List.mem_cons_self (aggregates_count _)
  · have hexpr : meanCounted ∈ countedPersons.exprs := mem_exprs.mpr (.inr (.inl List.mem_cons_self))
    exact h _ _ derived_countedPersons _ hexpr
      ⟨_, _, _, List.mem_cons_of_mem _ List.mem_cons_self, aggregates_count _⟩
  · exact h personTable memberTable everyPerson ⟨_, rfl⟩ hmany
  · have hinsert := exists_insert_of_takesRow .sqlite rfl rfl hcount
    exact h _ _ _ hinsert _ List.mem_cons_self _ rfl (aggregates_count _)
  · have hinsert := exists_insert_of_takesRow .sqlite rfl rfl hcolumn
    exact absurd (h _ _ _ hinsert _ List.mem_cons_self _ rfl) (List.cons_ne_nil _ _)
  · have hupdate := exists_update_of_takesRow .sqlite rfl rfl hcount
    exact h _ _ _ _ hupdate _ List.mem_cons_self _ rfl (aggregates_count _)
  · exact h .sqlite _ _ _ (exists_updateStatement.mpr ⟨rfl, rfl, hcount, hkeeps⟩) hmany
  · exact h .sqlite _ _ (exists_removeStatement.mpr ⟨rfl, hkeeps⟩) hmany

end

end Relation

end TableAlgebra
