import TableAlgebra.Proofs.Filling.Operators
import TableAlgebra.Proofs.Sql.Legible

/-!
# Grounded expressions and relations

What a program can make: expressions and relations built by the operators from the domains and attributes
in use.  The builders make nothing else, so each of them is shown to keep to it.

* `Expr.Grounded`, `Relation.Grounded`   what the builders can make, over a roster;
* `Relation.Grounded.deepLegible`        it can be read, and so can an expression in scope of it;
* `Expr.Grounded.combine` and the others, `Relation.Grounded.step`, `Relation.Grounded.join`   the builders.
-/

namespace TableAlgebra

/-! ## the invariant -/

/-- an expression over the domains and attributes in use, with literals that a program can make, and tests
of derived relations -/
structure Expr.Grounded (R : Roster) (e : Expr) : Prop extends e.In R where
  made : e.Made
  subselect : ∀ s ∈ e.subselects, ∃ ds, s.Derived Expr.Made ds

def Operand.Grounded (R : Roster) (o : Operand) : Prop := ∀ e, o.toExpr = .ok e → e.Grounded R

/-- a derived relation over the domains and attributes in use -/
structure Relation.Grounded (R : Roster) (r : Relation) : Prop where
  within : r.In R
  derived : ∃ ds, r.Derived Expr.Made ds

theorem Relation.Grounded.deepLegible {R : Roster} {r : Relation} (h : r.Grounded R) : r.DeepLegible := by
  obtain ⟨ds, hds⟩ := h.derived
  exact hds.deepLegible

theorem Expr.Grounded.deepLegible {R : Roster} {r : Relation} {e : Expr} (he : e.Grounded R)
    (hr : r.Grounded R) (hv : r.valid e = true) : e.DeepLegible where
  leaf a ha := hr.deepLegible.legible.leaf a (Relation.mem_leaves_of_valid hv ha)
  literal l hl := (he.made l hl).legible
  subselect s hs := by
    obtain ⟨ds, hds⟩ := he.subselect s hs
    exact hds.deepLegible

theorem Relation.Derived.isIdentifier_name {admitted : Expr → Prop} {ds : List TableDeclaration}
    {r : Relation} (h : Derived admitted ds r) {name : String} (hname : r.name? = some name) :
    isIdentifier name = true := by
  induction h with
  | table _ made =>
    obtain ⟨hid, -, -, rfl⟩ := table_eq_ok.mp made
    exact Option.some.inj hname ▸ hid
  | @step _ op _ _ _ _ _ _ made ih _ =>
    cases op with
    | project columns =>
      obtain ⟨_, -, -, -, rfl⟩ := project_eq_ok.mp made
      exact nomatch hname
    | restrict predicate =>
      cases predicate with
      | none => exact ih (Except.ok.inj made ▸ hname)
      | some p =>
        obtain ⟨-, -, rfl⟩ := filter_eq_ok.mp made
        exact nomatch hname
    | group key =>
      obtain ⟨-, rfl⟩ := group_eq_ok.mp made
      exact nomatch hname
    | order key =>
      obtain ⟨-, rfl⟩ := order_eq_ok.mp made
      exact nomatch hname
  | join _ _ _ _ _ made _ _ _ =>
    obtain ⟨-, -, rfl, -⟩ := join_eq_ok.mp made
    exact nomatch hname

/-! ## what the builders make of grounded things -/

section

variable {R : Roster}

theorem DataType.In.of_join {t u v : DataType} (ht : t.In R) (hu : u.In R) (h : t.join u = some v) :
    v.In R := by
  cases t with
  | base a =>
    cases u with
    | base b =>
      obtain ⟨c, -, rfl⟩ := Option.map_eq_some_iff.mp h
      trivial
    | domain e =>
      simp only [join, Option.ite_none_right_eq_some, Option.some.injEq] at h
      exact h.2 ▸ hu
  | domain d =>
    cases u with
    | base b =>
      simp only [join, Option.ite_none_right_eq_some, Option.some.injEq] at h
      exact h.2 ▸ ht
    | domain e =>
      simp only [join, Option.ite_none_right_eq_some, Option.some.injEq] at h
      exact h.2 ▸ ht

theorem BinaryOp.resultType?_in {op : BinaryOp} {t u v : DataType} (ht : t.In R) (hu : u.In R)
    (h : op.resultType? t u = some v) : v.In R := by
  cases op with
  | compare op =>
    obtain ⟨_, -, rfl⟩ := Option.map_eq_some_iff.mp h
    trivial
  | logic op => exact .of_join ht hu (Option.filter_eq_some_iff.mp h).1
  | arith op => exact .of_join ht hu (Option.filter_eq_some_iff.mp h).1

namespace Expr.Grounded

variable {e l r x : Expr}

theorem combine {op : BinaryOp} (hl : l.Grounded R) (hr : r.Grounded R) (h : Expr.combine op l r = .ok x) :
    x.Grounded R := by
  obtain ⟨t, ht, rfl⟩ := combine_eq_ok.mp h
  exact {
    type := op.resultType?_in hl.type hr.type ht
    leaf := List.forall_mem_append.mpr ⟨hl.leaf, hr.leaf⟩
    made := List.forall_mem_append.mpr ⟨hl.made, hr.made⟩
    subselect := List.forall_mem_append.mpr ⟨hl.subselect, hr.subselect⟩ }

theorem isIn {s : Relation} (he : e.Grounded R) (hs : s.Grounded R) (h : Expr.isIn e s = .ok x) :
    x.Grounded R := by
  obtain ⟨c, -, -, rfl⟩ := isIn_eq_ok.mp h
  exact {
    type := trivial
    leaf := he.leaf
    made := he.made
    subselect := List.forall_mem_append.mpr ⟨he.subselect, List.forall_mem_singleton.mpr hs.derived⟩ }

theorem count (he : e.Grounded R) : e.count.Grounded R where
  type := trivial
  leaf := he.leaf
  made := he.made
  subselect := he.subselect

theorem avg (he : e.Grounded R) (h : Expr.avg e = .ok x) : x.Grounded R := by
  obtain ⟨-, rfl⟩ := avg_eq_ok.mp h
  exact ⟨⟨trivial, he.leaf⟩, he.made, he.subselect⟩

end Expr.Grounded

theorem Expr.Grounded.attr {a : Attribute} (ha : a ∈ R.attributes) (ht : a.type.In R) :
    (Expr.attr a).Grounded R where
  type := ht
  leaf := List.forall_mem_singleton.mpr ha
  made := fun _ hl => absurd hl List.not_mem_nil
  subselect := fun _ hs => absurd hs List.not_mem_nil

theorem Expr.Grounded.literal {l : Literal} (ht : l.type.In R) (hl : l.Made) :
    (Expr.literal l).Grounded R where
  type := ht
  leaf := fun _ ha => absurd ha List.not_mem_nil
  made := List.forall_mem_singleton.mpr hl
  subselect := fun _ hs => absurd hs List.not_mem_nil

theorem Operand.Grounded.value (v : Value) : (Operand.value v).Grounded R := by
  intro e he
  cases hl : v.toLiteral with
  | error err => simp [toExpr, hl, Except.map] at he
  | ok l =>
    simp only [toExpr, hl, Except.map, Except.ok.injEq] at he
    subst he
    obtain ⟨b, hb⟩ := Value.type_of_toLiteral hl
    refine .literal ?_ (.value hl)
    rw [hb]
    trivial

theorem Operand.Grounded.label {v : EnumValue} (hv : v.domain ∈ R.domains) :
    (Operand.label v).Grounded R := by
  intro e he
  cases he
  exact .literal hv (.label v)

theorem Operand.Grounded.expr {e : Expr} (he : e.Grounded R) : (Operand.expr e).Grounded R := by
  intro e' he'
  cases he'
  exact he

namespace Relation.Grounded

variable {r s : Relation}

theorem expr (h : r.Grounded R) {e : Expr} (he : e ∈ r.exprs) : e.Grounded R := by
  obtain ⟨ds, hds⟩ := h.derived
  exact {
    toIn := h.within e he
    made := fun l hl => hds.literals_made l (List.mem_flatMap.mpr ⟨e, he, hl⟩)
    subselect := fun s hs => hds.of_mem_subselects he hs }

theorem attr (h : r.Grounded R) {key : String} {e : Expr} (he : r.attr key = .ok e) : e.Grounded R :=
  h.expr (mem_exprs_of_attr he)

/-- the declarations of the relations of membership tests, put together -/
theorem exists_tables {es : List Expr} (h : ∀ e ∈ es, e.Grounded R) :
    ∃ tables : Relation → List TableDeclaration,
      ∀ e ∈ es, ∀ s ∈ e.subselects, Derived Expr.Made (tables s) s := by
  have hderived : ∀ s : Relation, ∃ ds, (∃ e ∈ es, s ∈ e.subselects) → Derived Expr.Made ds s := by
    intro s
    by_cases hs : ∃ e ∈ es, s ∈ e.subselects
    · obtain ⟨e, he, hse⟩ := hs
      obtain ⟨ds, hds⟩ := (h e he).subselect s hse
      exact ⟨ds, fun _ => hds⟩
    · exact ⟨[], fun h => absurd h hs⟩
  choose tables htables using hderived
  exact ⟨tables, fun e he s hs => htables s ⟨e, he, hs⟩⟩

theorem step {op : Operation} (h : r.Grounded R) (hop : ∀ e ∈ op.exprs, e.Grounded R)
    (made : op.run r = .ok s) : s.Grounded R := by
  obtain ⟨ds, hds⟩ := h.derived
  obtain ⟨tables, htables⟩ := exists_tables hop
  refine ⟨fun e he => ?_, ds, .step tables hds (fun e he => (hop e he).made) htables made⟩
  rcases (Operation.exprs_of_run made).2 e he with he | ⟨he, -⟩
  · exact h.within e he
  · exact (hop e he).toIn

theorem join {j : Relation} {on : Expr} (hr : r.Grounded R) (hs : s.Grounded R) (hon : on.Grounded R)
    (made : r.join s on = .ok j) : j.Grounded R := by
  obtain ⟨ds, hds⟩ := hr.derived
  obtain ⟨es, hes⟩ := hs.derived
  obtain ⟨tables, htables⟩ := exists_tables (List.forall_mem_singleton.mpr hon)
  refine ⟨fun e he => ?_, ds ++ es, .join tables hds hes hon.made (htables on (List.mem_singleton_self on))
    made⟩
  rcases (exprs_of_join made).2.1 e he with he | he | rfl
  · exact hr.within e he
  · exact hs.within e he
  · exact hon.toIn

theorem table {d : TableDeclaration} (hdeclared : ∀ a ∈ d.attributes, a.Declared)
    (hbound : ∀ a ∈ d.bound, a ∈ R.attributes ∧ a.type.In R) (made : d.run = .ok s) : s.Grounded R := by
  refine ⟨fun e he => ?_, [d], .table hdeclared made⟩
  rw [(TableDeclaration.exprs_of_run made).2] at he
  obtain ⟨a, ha, rfl⟩ := List.mem_map.mp he
  exact (Expr.Grounded.attr (hbound a ha).1 (hbound a ha).2).toIn

end Relation.Grounded

end

end TableAlgebra
