import TableAlgebra.Proofs.Program.Grounded
import TableAlgebra.Proofs.Sql.Rereading

/-!
# Expressions of programs read back

Every name that a program puts into an expression was checked to be an identifier, so the expression can be
read.  This is an invariant of the workbench, carried from call to call.

* `Made.Named`, `Workbench.Named`   the attributes in what was made have names that can be read;
* `Workbench.Named.run`             it holds after any calls;
* `Workbench.readExpr_made`         what the expressions of a program are read as.
-/

namespace TableAlgebra

/-! ## names -/

/-- an expression whose attributes have names that can be read -/
def Expr.Named (e : Expr) : Prop := ∀ a ∈ e.leaves, a.Legible

/-- the attributes outside of relations have names that can be read -/
def Made.Named : Made → Prop
  | attr a => a.Legible
  | expr e => e.Named
  | _ => True

def Workbench.Named (s : Workbench) : Prop := ∀ m, some m ∈ s.made → m.Named

theorem Attribute.legible_of_declare {serial : Serial} {name : String} {t : DataType} {own : Qualifiers}
    {a : Attribute} (h : declare serial name t own = .ok a) : a.Legible := by
  obtain ⟨hname, -, -, rfl⟩ := declare_eq_ok.mp h
  exact ⟨hname, fun _ htable => nomatch htable⟩

namespace Expr.Named

variable {e l r x : Expr}

theorem combine {op : BinaryOp} (hl : l.Named) (hr : r.Named) (h : Expr.combine op l r = .ok x) :
    x.Named := by
  obtain ⟨t, -, rfl⟩ := combine_eq_ok.mp h
  exact List.forall_mem_append.mpr ⟨hl, hr⟩

theorem isIn {s : Relation} (he : e.Named) (h : Expr.isIn e s = .ok x) : x.Named := by
  obtain ⟨c, -, -, rfl⟩ := isIn_eq_ok.mp h
  exact he

theorem count (he : e.Named) : e.count.Named := he

theorem avg (he : e.Named) (h : Expr.avg e = .ok x) : x.Named := by
  obtain ⟨-, rfl⟩ := avg_eq_ok.mp h
  exact he

end Expr.Named

/-! ## the invariant -/

namespace Workbench.Named

variable {R : Roster} {s : Workbench}

theorem start : Workbench.start.Named := by
  intro m hm
  simp only [Workbench.start, List.mem_cons, Option.some.injEq, List.not_mem_nil, or_false] at hm
  rcases hm with rfl | rfl | rfl | rfl <;> trivial

theorem operand? (h : s.Named) {argument : Argument} {o : Operand} (ho : s.operand? argument = some o)
    {e : Expr} (he : o.toExpr = .ok e) : e.Named := by
  have hliteral (l : Literal) : (Expr.literal l).Named := fun _ ha => absurd ha List.not_mem_nil
  exact forall_operand? hliteral (fun a ha => List.forall_mem_singleton.mpr (h _ ha)) (fun e he => h _ he) ho he

theorem expr? (h : s.Named) {argument : Argument} {e : Expr} (he : s.expr? argument = some e) : e.Named := by
  obtain ⟨o, ho, hoe⟩ := Option.bind_eq_some_iff.mp he
  exact h.operand? ho (toOption_eq_some.mp hoe)

/-- a call makes an expression of named ones, or takes it from a relation, which can be read -/
theorem run_call (h : s.Named) (hbench : s.Grounded R) {c : Call} {m : Made} (hm : c.run s = some m) :
    m.Named := by
  cases Call.yields_of_run hm with
  | declare type made => exact Attribute.legible_of_declare made
  | column relation made =>
    exact ((hbench.relation? relation).deepLegible.expr (Relation.mem_exprs_of_attr made)).leaf
  | apply left right wrapped made => exact (h.expr? left).combine (h.operand? right wrapped) made
  | member tested relation made => exact (h.expr? tested).isIn made
  | count counted => exact (h.expr? counted).count
  | avg averaged made => exact (h.expr? averaged).avg made
  | _ => trivial

theorem run (h : s.Named) (hbench : s.Grounded R) (calls : List Call) : (s.run calls).Named :=
  hbench.forall_made_run h (fun hbench h hm => run_call h hbench hm) calls

end Workbench.Named

theorem Expr.Grounded.deepLegible_of_named {R : Roster} {e : Expr} (h : e.Grounded R) (hnamed : e.Named) :
    e.DeepLegible where
  leaf := hnamed
  literal l hl := (h.made l hl).legible
  subselect s hs := by
    obtain ⟨ds, hds⟩ := h.subselect s hs
    exact hds.deepLegible

namespace Workbench

/-- **Precedence.**  Every expression that a program can make is read as `Expr.asRead` says: an operator that
binds as tightly as a membership test takes the left operand of a test on its right to itself.  So the
expression is read as its own tree if and only if no such operator has a test as its right operand, at any
depth. -/
theorem readExpr_made {calls : List Call} {argument : Argument} {e : Expr}
    (h : (start.run calls).expr? argument = some e) (d : Dialect) (qualified : Bool) :
    readExpr (exprText d qualified e) = some (e.asRead qualified) ∧
      (readExpr (exprText d qualified e) = some (e.tree qualified) ↔ e.Clear) := by
  obtain ⟨R, hbench⟩ := exists_grounded_run calls
  have hnamed := (Named.start.run Grounded.start calls).expr? h
  have hread := readExpr_exprText ((hbench.expr? h).deepLegible_of_named hnamed) d qualified
  refine ⟨hread, ?_⟩
  rw [hread, Option.some.injEq]
  exact e.asRead_eq_tree_iff qualified

/-- a table of flags and numbers, the query for its numbers, and the test whether a number is among them:
joined to the flag of its row, and compared with it -/
def flagCalls : List Call :=
  [.declare "flag" 3 {}, .declare "id" 0 {}, .table "t" [4, 5] ∅, .column 6 "flag", .column 6 "id",
    .project 6 [("id", .made 8)], .member (.made 8) 9, .apply (.logic .and) (.made 7) (.made 10),
    .apply (.compare .eq) (.made 7) (.made 10)]

def flagOwner : Owner := ⟨⟨2⟩, "t"⟩

def flagColumn : Attribute := ⟨"flag", .boolean, {}, .bound flagOwner⟩

def idColumn : Attribute := ⟨"id", .integer, {}, .bound flagOwner⟩

def flagTest (op : BinaryOp) : Expr :=
  .binary op .boolean (.attr flagColumn)
    (.member .boolean (.attr idColumn) ⟨.derived, ["t"], [⟨"id", .attr idColumn⟩], [], [], []⟩)

theorem expr?_and : (start.run flagCalls).expr? (.made 11) = some (flagTest (.logic .and)) := by rfl

theorem expr?_eq : (start.run flagCalls).expr? (.made 12) = some (flagTest (.compare .eq)) := by rfl

theorem clear_and : (flagTest (.logic .and)).Clear := by
  have hquery : Relation.Clear ⟨.derived, ["t"], [⟨"id", .attr idColumn⟩], [], [], []⟩ :=
    Relation.clear_iff.mpr (List.forall_mem_singleton.mpr (Expr.clear_attr idColumn))
  exact Expr.clear_binary.mpr ⟨fun h => absurd h (by decide), Expr.clear_attr flagColumn,
    Expr.clear_member.mpr ⟨Expr.clear_attr idColumn, hquery⟩⟩

/-- the hypothesis of `readExpr_made` can be met by a test under a connective, which is read as its own tree -/
theorem readExpr_made_and :
    exprText .sqlite false (flagTest (.logic .and)) = "(flag and id in (select id from t))" ∧
      (start.run flagCalls).expr? (.made 11) = some (flagTest (.logic .and)) ∧
      readExpr (exprText .sqlite false (flagTest (.logic .and))) = some ((flagTest (.logic .and)).asRead false) ∧
      readExpr (exprText .sqlite false (flagTest (.logic .and))) = some ((flagTest (.logic .and)).tree false) :=
  ⟨by rfl, expr?_and, (readExpr_made expr?_and .sqlite false).1,
    (readExpr_made expr?_and .sqlite false).2.mpr clear_and⟩

/-- Not every expression is read as its own tree: in `(flag = id in (select id from t))` the flag is compared
with the number, and the outcome is looked up among the numbers. -/
theorem not_reads_own_tree : ¬ ∃ d : Dialect, ∀ (calls : List Call) (argument : Argument) (e : Expr) (qualified : Bool),
    (start.run calls).expr? argument = some e → readExpr (exprText d qualified e) = some (e.tree qualified) := by
  rintro ⟨d, h⟩
  have hread := h flagCalls (.made 12) (flagTest (.compare .eq)) false expr?_eq
  have htext : readExpr (exprText d false (flagTest (.compare .eq)))
      = some ((flagTest (.compare .eq)).asRead false) := by cases d <;> rfl
  rw [htext] at hread
  exact nomatch Option.some.inj hread

end Workbench

end TableAlgebra
