import TableAlgebra.Proofs.Expr.Typing
import TableAlgebra.Proofs.Relation.Clauses
import TableAlgebra.Proofs.Sql.Legible

/-!
# Typed relations

A relation is typed if it gives out columns under distinct identifiers, keeps rows by truth values only, and
holds typed expressions; deeply so if the relations of its membership tests are typed as well, at any depth.  The
operators make deeply typed relations of deeply typed expressions.

* `Relation.Typed`, `Relation.DeepTyped`, `Expr.DeepTyped`   typed relations and expressions;
* `Expr.DeepTyped.combine` and the others                    what the builders make is deeply typed;
* `Relation.DeepTyped.table`, `step`, `join`                 and so is what the operators make.
-/

namespace TableAlgebra

/-- there are columns, under distinct identifiers, restrictions are truth values, and expressions are typed -/
structure Relation.Typed (r : Relation) : Prop where
  wellKeyed : r.WellKeyed
  nodup : r.keys.Nodup
  restriction : ∀ e ∈ r.restrictions, e.type.isBoolean = true
  expr : ∀ e ∈ r.exprs, e.Typed

/-- everything nested in the relation, itself included, is typed -/
def Relation.DeepTyped (r : Relation) : Prop := ∀ s, r.Nests s → s.Typed

structure Expr.DeepTyped (e : Expr) : Prop where
  typed : e.Typed
  subselect : ∀ s ∈ e.subselects, s.DeepTyped

namespace Relation

theorem DeepTyped.of_exprs {r : Relation} (h : r.Typed) (hexprs : ∀ e ∈ r.exprs, e.DeepTyped) : r.DeepTyped := by
  intro s hs
  cases hs.cases_head with
  | inl heq => exact heq ▸ h
  | inr hnested =>
    obtain ⟨t, ht, hts⟩ := hnested
    obtain ⟨e, he, ht⟩ := List.mem_flatMap.mp ht
    exact (hexprs e he).subselect t ht s hts

namespace DeepTyped

variable {r s : Relation}

theorem typed (h : r.DeepTyped) : r.Typed := h r .refl

theorem expr (h : r.DeepTyped) {e : Expr} (he : e ∈ r.exprs) : e.DeepTyped where
  typed := h.typed.expr e he
  subselect _ hs t ht := h t (ht.of_subselect he hs)

end DeepTyped

end Relation

/-! ## builders -/

namespace Expr.DeepTyped

variable {l r e x : Expr}

theorem literal (v : Literal) : (Expr.literal v).DeepTyped := ⟨typed_literal v, fun _ hs => absurd hs List.not_mem_nil⟩

theorem attr (a : Attribute) : (Expr.attr a).DeepTyped := ⟨typed_attr a, fun _ hs => absurd hs List.not_mem_nil⟩

theorem combine {op : BinaryOp} (hl : l.DeepTyped) (hr : r.DeepTyped) (h : Expr.combine op l r = .ok x) :
    x.DeepTyped := by
  obtain ⟨t, -, rfl⟩ := combine_eq_ok.mp h
  exact ⟨typed_binary.mpr ⟨combine_iff_ruled.mp h, hl.typed, hr.typed⟩,
    List.forall_mem_append.mpr ⟨hl.subselect, hr.subselect⟩⟩

theorem isIn {s : Relation} (he : e.DeepTyped) (hs : s.DeepTyped) (h : Expr.isIn e s = .ok x) : x.DeepTyped := by
  obtain ⟨c, -, -, rfl⟩ := isIn_eq_ok.mp h
  exact ⟨typed_member.mpr ⟨isIn_iff_ruled.mp h, he.typed⟩,
    List.forall_mem_append.mpr ⟨he.subselect, List.forall_mem_singleton.mpr hs⟩⟩

theorem count (he : e.DeepTyped) : e.count.DeepTyped :=
  ⟨typed_aggregate.mpr ⟨count_iff_ruled.mp rfl, he.typed⟩, he.subselect⟩

theorem avg (he : e.DeepTyped) (h : Expr.avg e = .ok x) : x.DeepTyped := by
  obtain ⟨-, rfl⟩ := avg_eq_ok.mp h
  exact ⟨typed_aggregate.mpr ⟨avg_iff_ruled.mp h, he.typed⟩, he.subselect⟩

end Expr.DeepTyped

/-! ## operators -/

namespace Relation

theorem nodup_keys_of_table {d : TableDeclaration} {t : Relation} (made : d.run = .ok t) : t.keys.Nodup := by
  obtain ⟨-, hnodup, -, rfl⟩ := table_eq_ok.mp made
  simpa [keys, tableColumns, Function.comp_def] using hnodup

theorem nodup_keys_of_run {op : Operation} {r s : Relation} (hr : r.keys.Nodup) (h : op.run r = .ok s) :
    s.keys.Nodup := by
  cases op with
  | project columns =>
    obtain ⟨cs, hcs, hnodup, -, rfl⟩ := project_eq_ok.mp h
    have hkeys : columns.map Prod.fst = cs.map Column.key := by
      rw [← List.forall₂_eq_eq_eq, List.forall₂_map_left_iff, List.forall₂_map_right_iff]
      exact hcs.imp fun n c hc => hc.1.symm
    show (cs.map Column.key).Nodup
    rw [← hkeys]
    exact hnodup
  | restrict predicate =>
    cases predicate with
    | none => exact Except.ok.inj h ▸ hr
    | some p =>
      obtain ⟨-, -, rfl⟩ := filter_eq_ok.mp h
      exact hr
  | group key =>
    obtain ⟨-, rfl⟩ := group_eq_ok.mp h
    exact hr
  | order key =>
    obtain ⟨-, rfl⟩ := order_eq_ok.mp h
    exact hr

theorem isBoolean_of_run {op : Operation} {r s : Relation}
    (hr : ∀ e ∈ r.restrictions, e.type.isBoolean = true) (h : op.run r = .ok s) :
    ∀ e ∈ s.restrictions, e.type.isBoolean = true := by
  have hadded : s.restrictions = r.restrictions ++ op.given .restriction := Operation.clause_of_run h .restriction
  rw [hadded]
  refine List.forall_mem_append.mpr ⟨hr, fun e he => ?_⟩
  cases op with
  | restrict predicate =>
    obtain rfl := Option.mem_toList.mp he
    exact (filter_eq_ok.mp h).2.1
  | _ => exact absurd he List.not_mem_nil

theorem nodup_keys_of_join {r s j : Relation} {on : Expr} (hr : r.keys.Nodup) (hs : s.keys.Nodup)
    (h : r.join s on = .ok j) : j.keys.Nodup := by
  obtain ⟨-, hdisjoint, rfl, -⟩ := join_eq_ok.mp h
  show ((r.columns ++ s.columns).map Column.key).Nodup
  rw [List.map_append, List.nodup_append]
  refine ⟨hr, hs, fun key hkr key' hks heq => ?_⟩
  exact hdisjoint key (heq ▸ hks) hkr

theorem Derived.nodup_keys {admitted : Expr → Prop} {ds : List TableDeclaration} {r : Relation}
    (h : Derived admitted ds r) : r.keys.Nodup := by
  induction h with
  | table _ made => exact nodup_keys_of_table made
  | step _ _ _ _ made ih _ => exact nodup_keys_of_run ih made
  | join _ _ _ _ _ made ihr ihs _ => exact nodup_keys_of_join ihr ihs made

namespace DeepTyped

variable {r s : Relation}

theorem table {d : TableDeclaration} (declared : ∀ a ∈ d.attributes, a.Declared) (made : d.run = .ok r) :
    r.DeepTyped := by
  have hkeyed := WellKeyed.table declared made
  have hexprs := (TableDeclaration.exprs_of_run made).2
  have hall : ∀ e ∈ r.exprs, e.DeepTyped := by
    intro e he
    rw [hexprs] at he
    obtain ⟨a, -, rfl⟩ := List.mem_map.mp he
    exact .attr a
  refine .of_exprs ⟨hkeyed, nodup_keys_of_table made, ?_, fun e he => (hall e he).typed⟩ hall
  obtain ⟨-, -, -, rfl⟩ := table_eq_ok.mp made
  exact fun e he => absurd he List.not_mem_nil

theorem step {op : Operation} (h : r.DeepTyped) (given : ∀ e ∈ op.exprs, e.DeepTyped)
    (made : op.run r = .ok s) : s.DeepTyped := by
  have hall : ∀ e ∈ s.exprs, e.DeepTyped := by
    intro e he
    rcases (Operation.exprs_of_run made).2 e he with he | ⟨he, -⟩
    · exact h.expr he
    · exact given e he
  have hkeyed := h.typed.wellKeyed.step made
  have hnodup := nodup_keys_of_run h.typed.nodup made
  have hboolean := isBoolean_of_run h.typed.restriction made
  exact .of_exprs ⟨hkeyed, hnodup, hboolean, fun e he => (hall e he).typed⟩ hall

theorem join {j : Relation} {on : Expr} (hr : r.DeepTyped) (hs : s.DeepTyped) (hon : on.DeepTyped)
    (made : r.join s on = .ok j) : j.DeepTyped := by
  have hall : ∀ e ∈ j.exprs, e.DeepTyped := by
    intro e he
    rcases (exprs_of_join made).2.1 e he with he | he | rfl
    · exact hr.expr he
    · exact hs.expr he
    · exact hon
  have hkeyed := hr.typed.wellKeyed.join hs.typed.wellKeyed made
  have hnodup := nodup_keys_of_join hr.typed.nodup hs.typed.nodup made
  refine .of_exprs ⟨hkeyed, hnodup, ?_, fun e he => (hall e he).typed⟩ hall
  obtain ⟨hboolean, -, rfl, -⟩ := join_eq_ok.mp made
  refine List.forall_mem_append.mpr ⟨List.forall_mem_append.mpr ⟨?_, ?_⟩, List.forall_mem_singleton.mpr hboolean⟩
  · exact hr.typed.restriction
  · exact hs.typed.restriction

end DeepTyped

end Relation

end TableAlgebra
