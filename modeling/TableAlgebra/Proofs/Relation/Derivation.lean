import TableAlgebra.Proofs.Expr.Leaves
import TableAlgebra.Proofs.Relation.Operators

/-!
# Derivations

Relations come from nowhere but declarations of tables and operators on relations made before.
`Relation.Derived` is that closure.  The expressions handed to the operators are arbitrary trees, with one
restriction: the relation of a membership test has a derivation of its own.  What else is asked of them
is a parameter, `admitted`, since most invariants ask nothing.

* `TableDeclaration`     the arguments of one declaration of a table;
* `Operation`            an operator on one relation, with its arguments;
* `Relation.Derived`     relations with the declarations they are derived from;
* `Operation.exprs_of_run`, `Relation.exprs_of_join`   every expression of a result was there before, or was
                         given to the operator and is in scope;
* `Relation.Derived.of_nests`   what is nested in a derived relation is derived.
-/

namespace TableAlgebra

/-- an attribute that was declared, or bound to a table afterwards -/
inductive Attribute.Declared : Attribute → Prop where
  | declare {serial : Serial} {name : String} {type : DataType} {own : Qualifiers} {a : Attribute}
      (made : Attribute.declare serial name type own = .ok a) : Declared a
  | bind {a : Attribute} (owner : Owner) (declared : Declared a) : Declared (a.bind owner)

/-- the arguments of one declaration of a table; its serial number tells it from every other one -/
structure TableDeclaration where
  serial : Serial
  name : String
  attributes : List Attribute
  options : OrderedMap Value

namespace TableDeclaration

def owner (d : TableDeclaration) : Owner := ⟨d.serial, d.name⟩

/-- the attributes of the table, bound to it -/
def bound (d : TableDeclaration) : List Attribute := d.attributes.map (·.bind d.owner)

def run (d : TableDeclaration) : Except AlgebraError Relation :=
  Relation.table d.serial d.name d.attributes d.options

theorem owner?_of_mem_bound {d : TableDeclaration} {a : Attribute} (h : a ∈ d.bound) :
    a.owner? = some d.owner := by
  obtain ⟨b, _, rfl⟩ := List.mem_map.mp h
  exact Attribute.owner?_bind b d.owner

/-- a declared table reads itself alone, and its expressions are its attributes -/
theorem exprs_of_run {d : TableDeclaration} {t : Relation} (h : d.run = .ok t) :
    t.sources = [d.name] ∧ t.exprs = d.bound.map Expr.attr := by
  obtain ⟨-, -, -, rfl⟩ := Relation.table_eq_ok.mp h
  refine ⟨rfl, ?_⟩
  simp [Relation.exprs, Relation.tableColumns, bound, owner, Function.comp_def]

end TableDeclaration

inductive Operation where
  | project (columns : List (String × Operand))
  | restrict (predicate : Option Expr)
  | group (key : Expr)
  | order (key : Expr)

namespace Operation

/-- the relation that an operation makes of another one -/
def run : Operation → Relation → Except AlgebraError Relation
  | project columns, r => r.project columns
  | restrict predicate, r => r.restrict predicate
  | group key, r => r.group key
  | order key, r => r.order key

def exprs : Operation → List Expr
  | project columns => columns.filterMap fun c => c.2.toExpr.toOption
  | restrict predicate => predicate.toList
  | group key => [key]
  | order key => [key]

/-- an admitted column holds an expression given to the projection -/
theorem mem_exprs_of_admits {r : Relation} {columns : List (String × Operand)} {cs : List Column}
    (h : List.Forall₂ r.Admits columns cs) {c : Column} (hc : c ∈ cs) :
    c.expr ∈ (project columns).exprs ∧ r.valid c.expr = true := by
  obtain ⟨n, hn, -, -, he, hv, -⟩ := exists_mem_of_forall₂ h hc
  refine ⟨List.mem_filterMap.mpr ⟨n, hn, ?_⟩, hv⟩
  rw [he]
  rfl

/-- an operation reads what was read before, and every expression of its result was there before or is
given and in scope -/
theorem exprs_of_run {op : Operation} {r r' : Relation} (h : op.run r = .ok r') :
    r'.sources = r.sources ∧
      ∀ e ∈ r'.exprs, e ∈ r.exprs ∨ e ∈ op.exprs ∧ r.valid e = true := by
  cases op with
  | project columns =>
    obtain ⟨cs, hcs, -, -, rfl⟩ := Relation.project_eq_ok.mp h
    refine ⟨rfl, fun e he => ?_⟩
    rcases Relation.mem_exprs.mp he with ⟨c, hc, rfl⟩ | he
    · exact .inr (mem_exprs_of_admits hcs hc)
    · exact .inl (Relation.mem_exprs.mpr (.inr he))
  | restrict predicate =>
    cases predicate with
    | none =>
      cases Except.ok.inj h
      exact ⟨rfl, fun e he => .inl he⟩
    | some p =>
      obtain ⟨hv, -, rfl⟩ := Relation.filter_eq_ok.mp h
      refine ⟨rfl, fun e he => ?_⟩
      simp only [Relation.mem_exprs, List.mem_append, List.mem_singleton] at he ⊢
      rcases he with hc | (hr | rfl) | hgo
      · exact .inl (.inl hc)
      · exact .inl (.inr (.inl hr))
      · exact .inr ⟨Option.mem_toList.mpr rfl, hv⟩
      · exact .inl (.inr (.inr hgo))
  | group key =>
    obtain ⟨hv, rfl⟩ := Relation.group_eq_ok.mp h
    refine ⟨rfl, fun e he => ?_⟩
    simp only [Relation.mem_exprs, List.mem_append, List.mem_singleton] at he ⊢
    rcases he with hc | hr | (hg | rfl) | ho
    · exact .inl (.inl hc)
    · exact .inl (.inr (.inl hr))
    · exact .inl (.inr (.inr (.inl hg)))
    · exact .inr ⟨List.mem_singleton_self _, hv⟩
    · exact .inl (.inr (.inr (.inr ho)))
  | order key =>
    obtain ⟨hv, rfl⟩ := Relation.order_eq_ok.mp h
    refine ⟨rfl, fun e he => ?_⟩
    simp only [Relation.mem_exprs, List.mem_append, List.mem_singleton] at he ⊢
    rcases he with hc | hr | hg | ho | rfl
    · exact .inl (.inl hc)
    · exact .inl (.inr (.inl hr))
    · exact .inl (.inr (.inr (.inl hg)))
    · exact .inl (.inr (.inr (.inr ho)))
    · exact .inr ⟨List.mem_singleton_self _, hv⟩

end Operation

namespace Relation

/-- a join reads what both sides read, and its expressions are those of both and the predicate, whose
leaves are leaves of one of them -/
theorem exprs_of_join {r s j : Relation} {on : Expr} (h : r.join s on = .ok j) :
    j.sources = r.sources ++ s.sources ∧
      (∀ e ∈ j.exprs, e ∈ r.exprs ∨ e ∈ s.exprs ∨ e = on) ∧
      ∀ a ∈ on.leaves, a ∈ r.leaves ∨ a ∈ s.leaves := by
  obtain ⟨-, -, hj, hv⟩ := join_eq_ok.mp h
  refine ⟨hj ▸ rfl, fun e he => ?_, fun a ha => ?_⟩
  · subst hj
    simp only [mem_exprs, List.mem_append, List.mem_singleton] at he ⊢
    rcases he with ⟨c, hc | hc, rfl⟩ | ((hr | hs) | rfl) | hg | ho
    · exact .inl (.inl ⟨c, hc, rfl⟩)
    · exact .inr (.inl (.inl ⟨c, hc, rfl⟩))
    · exact .inl (.inr (.inl hr))
    · exact .inr (.inl (.inr (.inl hs)))
    · exact .inr (.inr rfl)
    · exact .inl (.inr (.inr (.inl hg)))
    · exact .inl (.inr (.inr (.inr ho)))
  · obtain ⟨c, hc, hca⟩ := valid_iff.mp hv a ha
    subst hj
    rcases List.mem_append.mp hc with hc | hc
    · exact .inl (mem_leaves_of_mem_columns hc hca)
    · exact .inr (mem_leaves_of_mem_columns hc hca)

/-- The relations derived from the given declarations of tables.  A relation in a membership test is
derived from declarations of its own, given by `tables`. -/
inductive Derived (admitted : Expr → Prop) : List TableDeclaration → Relation → Prop where
  | table {d : TableDeclaration} {t : Relation} (declared : ∀ a ∈ d.attributes, a.Declared)
      (made : d.run = .ok t) : Derived admitted [d] t
  | step {ds : List TableDeclaration} {op : Operation} {r r' : Relation}
      (tables : Relation → List TableDeclaration) (base : Derived admitted ds r)
      (given : ∀ e ∈ op.exprs, admitted e)
      (nested : ∀ e ∈ op.exprs, ∀ s ∈ e.subselects, Derived admitted (tables s) s)
      (made : op.run r = .ok r') : Derived admitted ds r'
  | join {ds es : List TableDeclaration} {r s j : Relation} {on : Expr}
      (tables : Relation → List TableDeclaration) (left : Derived admitted ds r)
      (right : Derived admitted es s) (given : admitted on)
      (nested : ∀ s ∈ on.subselects, Derived admitted (tables s) s)
      (made : r.join s on = .ok j) : Derived admitted (ds ++ es) j

namespace Derived

variable {admitted : Expr → Prop} {ds : List TableDeclaration} {r s : Relation}

theorem step_one {op : Operation} {e : Expr} (base : Derived admitted ds r) (hop : op.exprs = [e])
    (given : admitted e) (hflat : e.subselects = []) (made : op.run r = .ok s) : Derived admitted ds s := by
  refine .step (fun _ => []) base (fun f hf => ?_) (fun f hf t ht => ?_) made
  · rw [hop] at hf
    exact List.mem_singleton.mp hf ▸ given
  · rw [hop] at hf
    rw [List.mem_singleton.mp hf, hflat] at ht
    exact absurd ht List.not_mem_nil

theorem of_mem_subselects (h : Derived admitted ds r) {e : Expr} (he : e ∈ r.exprs)
    (hs : s ∈ e.subselects) : ∃ es, Derived admitted es s := by
  induction h with
  | table declared made =>
    rw [(TableDeclaration.exprs_of_run made).2] at he
    obtain ⟨a, -, rfl⟩ := List.mem_map.mp he
    exact absurd hs List.not_mem_nil
  | step tables base given nested made ih _ =>
    rcases (Operation.exprs_of_run made).2 e he with he | ⟨he, -⟩
    · exact ih he
    · exact ⟨tables s, nested e he s hs⟩
  | join tables left right given nested made ihl ihr _ =>
    rcases (exprs_of_join made).2.1 e he with he | he | rfl
    · exact ihl he
    · exact ihr he
    · exact ⟨tables s, nested s hs⟩

theorem of_nests (h : Derived admitted ds r) (hs : r.Nests s) : ∃ es, Derived admitted es s := by
  induction hs with
  | refl => exact ⟨ds, h⟩
  | tail _ hs ih =>
    obtain ⟨es, h⟩ := ih
    obtain ⟨e, he, hs⟩ := List.mem_flatMap.mp hs
    exact h.of_mem_subselects he hs

end Derived

end Relation

end TableAlgebra
