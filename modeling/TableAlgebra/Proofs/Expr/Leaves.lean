import Mathlib.Logic.Relation
import TableAlgebra.Relation.Scope

/-!
# Leaves of expressions

What an expression reads: the attributes and literals at its leaves and the relations of its membership
tests.  The relation of a membership test has a scope of its own, so its leaves are not counted.  The
two checks of scope are stated here by leaves, in `inScope_iff` and `inGroupScope_iff`.

* `Expr.leaves`       the attributes of an expression, at any depth of operands;
* `Expr.bareLeaves`   those of them that stand below no aggregate;
* `Expr.literals`     the literals of an expression;
* `Expr.subselects`   the relations of its membership tests;
* `Expr.All`          properties of what stands at the leaves, handed down to the operands;
* `Relation.exprs`    the expressions of a relation, and with it `Relation.leaves` and the others;
* `Relation.Nests`    a relation holds another one in its membership tests, at any depth;
* `Structural`        induction over expressions and the relations inside of them.
-/

namespace TableAlgebra

namespace Expr

/-! ## what stands at the leaves -/

/-- the attributes of an expression, in the order in which they are written -/
def leaves : Expr → List Attribute
  | literal _ => []
  | attr a => [a]
  | binary _ _ l r => l.leaves ++ r.leaves
  | aggregate _ _ e => e.leaves
  | member _ e _ => e.leaves

def bareLeaves : Expr → List Attribute
  | literal _ => []
  | attr a => [a]
  | binary _ _ l r => l.bareLeaves ++ r.bareLeaves
  | aggregate _ _ _ => []
  | member _ e _ => e.bareLeaves

def literals : Expr → List Literal
  | literal l => [l]
  | attr _ => []
  | binary _ _ l r => l.literals ++ r.literals
  | aggregate _ _ e => e.literals
  | member _ e _ => e.literals

def subselects : Expr → List Relation
  | literal _ => []
  | attr _ => []
  | binary _ _ l r => l.subselects ++ r.subselects
  | aggregate _ _ e => e.subselects
  | member _ e r => e.subselects ++ [r]

theorem mem_leaves_of_mem_bareLeaves {a : Attribute} :
    (e : Expr) → a ∈ e.bareLeaves → a ∈ e.leaves
  | literal _, h => h
  | attr _, h => h
  | binary _ _ l r, h => by
    rw [bareLeaves, List.mem_append] at h
    rw [leaves, List.mem_append]
    exact h.imp (mem_leaves_of_mem_bareLeaves l) (mem_leaves_of_mem_bareLeaves r)
  | aggregate _ _ _, h => by
    rw [bareLeaves] at h
    exact absurd h List.not_mem_nil
  | member _ e _, h => mem_leaves_of_mem_bareLeaves e h

theorem attribute?_eq_some {e : Expr} {a : Attribute} : e.attribute? = some a ↔ e = .attr a := by
  cases e <;> simp [attribute?]

end Expr

/-! ## properties of what stands at the leaves -/

namespace Expr

/-- the attributes, the literals and the subselects of an expression have the given properties -/
structure All (p : Attribute → Prop) (q : Literal → Prop) (s : Relation → Prop) (e : Expr) : Prop where
  leaf : ∀ a ∈ e.leaves, p a
  literal : ∀ l ∈ e.literals, q l
  subselect : ∀ r ∈ e.subselects, s r

namespace All

variable {p : Attribute → Prop} {q : Literal → Prop} {s : Relation → Prop} {e l r : Expr} {t : DataType}
  {op : BinaryOp} {f : AggregateFunc} {n : Relation}

theorem left (h : (binary op t l r).All p q s) : l.All p q s :=
  ⟨fun a ha => h.leaf a (List.mem_append_left _ ha),
    fun m hm => h.literal m (List.mem_append_left _ hm),
    fun n hn => h.subselect n (List.mem_append_left _ hn)⟩

theorem right (h : (binary op t l r).All p q s) : r.All p q s :=
  ⟨fun a ha => h.leaf a (List.mem_append_right _ ha),
    fun m hm => h.literal m (List.mem_append_right _ hm),
    fun n hn => h.subselect n (List.mem_append_right _ hn)⟩

theorem operand (h : (aggregate f t e).All p q s) : e.All p q s :=
  ⟨h.leaf, h.literal, h.subselect⟩

theorem tested (h : (member t e n).All p q s) : e.All p q s :=
  ⟨h.leaf, h.literal, fun n hn => h.subselect n (List.mem_append_left _ hn)⟩

theorem relation (h : (member t e n).All p q s) : s n :=
  h.subselect n (List.mem_append_right _ (List.mem_singleton_self n))

end All

end Expr

/-! ## scope by leaves -/

theorem Column.exposes_iff {columns : List Column} {a : Attribute} :
    Column.exposes columns a = true ↔ ∃ c ∈ columns, c.expr = .attr a := by
  simp [Column.exposes, Expr.attribute?_eq_some]

theorem Column.exposes_append {columns more : List Column} {a : Attribute} :
    Column.exposes (columns ++ more) a = (Column.exposes columns a || Column.exposes more a) := List.any_append

theorem Expr.determine_iff {groups : List Expr} {a : Attribute} :
    Expr.determine groups a = true ↔ ∃ k, Expr.attr k ∈ groups ∧ a.dependsOn k = true := by
  unfold Expr.determine
  rw [List.any_eq_true]
  constructor
  · rintro ⟨key, hkey, h⟩
    cases hk : key.attribute? with
    | none => simp [hk] at h
    | some k =>
      rw [hk] at h
      exact ⟨k, attribute?_eq_some.mp hk ▸ hkey, h⟩
  · rintro ⟨k, hk, h⟩
    exact ⟨.attr k, hk, h⟩

theorem Expr.inScope_iff {columns : List Column} :
    (e : Expr) → (e.inScope columns = true ↔ ∀ a ∈ e.leaves, Column.exposes columns a = true)
  | literal _ => by simp [inScope, leaves]
  | attr _ => by simp [inScope, leaves]
  | binary _ _ l r => by
    rw [inScope, Bool.and_eq_true, inScope_iff l, inScope_iff r, leaves, List.forall_mem_append]
  | aggregate _ _ e => inScope_iff e
  | member _ e _ => inScope_iff e

/-- The check of a grouped relation: everything is in scope, and what stands below no aggregate is
determined by the groups, unless the expression counts as aggregated from the start. -/
theorem Expr.inGroupScope_iff {columns : List Column} {groups : List Expr} (aggregated : Bool) :
    (e : Expr) → (e.inGroupScope columns groups aggregated = true ↔
      e.inScope columns = true ∧
        (aggregated = false → ∀ a ∈ e.bareLeaves, Expr.determine groups a = true))
  | literal _ => by simp [inGroupScope, inScope, bareLeaves]
  | attr a => by cases aggregated <;> simp [inGroupScope, inScope, bareLeaves]
  | binary _ _ l r => by
    rw [inGroupScope, inScope, bareLeaves, Bool.and_eq_true, Bool.and_eq_true,
      inGroupScope_iff aggregated l, inGroupScope_iff aggregated r, List.forall_mem_append,
      imp_and]
    exact and_and_and_comm
  | aggregate _ _ e => by
    rw [inGroupScope, inGroupScope_iff true e]
    simp [inScope, bareLeaves]
  | member _ e _ => inGroupScope_iff aggregated e

/-! ## relations -/

namespace Relation

def exprs (r : Relation) : List Expr :=
  r.columns.map Column.expr ++ r.restrictions ++ r.groups ++ r.orders

def leaves (r : Relation) : List Attribute := r.exprs.flatMap Expr.leaves

def literals (r : Relation) : List Literal := r.exprs.flatMap Expr.literals

def subselects (r : Relation) : List Relation := r.exprs.flatMap Expr.subselects

/-- `s` is reached from `r` through membership tests, in any number of steps -/
def Nests (r s : Relation) : Prop := Relation.ReflTransGen (fun r s => s ∈ r.subselects) r s

/-- what is nested in a relation of a membership test is nested in the relation that holds the test -/
theorem Nests.of_subselect {r s t : Relation} {e : Expr} (he : e ∈ r.exprs) (hs : s ∈ e.subselects)
    (ht : s.Nests t) : r.Nests t :=
  .head (List.mem_flatMap.mpr ⟨e, he, hs⟩) ht

theorem mem_exprs {r : Relation} {e : Expr} :
    e ∈ r.exprs ↔ (∃ c ∈ r.columns, c.expr = e) ∨ e ∈ r.restrictions ∨ e ∈ r.groups ∨ e ∈ r.orders := by
  simp [exprs]

theorem mem_exprs_of_attr {r : Relation} {key : String} {e : Expr} (h : r.attr key = .ok e) :
    e ∈ r.exprs := by
  unfold attr at h
  cases hkey : r.column? key with
  | none => simp [hkey] at h
  | some e' =>
    simp only [hkey, Except.ok.injEq] at h
    subst h
    obtain ⟨c, hc, rfl⟩ := Option.map_eq_some_iff.mp hkey
    exact mem_exprs.mpr (.inl ⟨c, List.mem_of_find?_eq_some hc, rfl⟩)

theorem valid_iff_owns {r : Relation} {e : Expr} : r.valid e = true ↔ ∀ a ∈ e.leaves, r.owns a = true :=
  Expr.inScope_iff e

theorem valid_iff {r : Relation} {e : Expr} :
    r.valid e = true ↔ ∀ a ∈ e.leaves, ∃ c ∈ r.columns, c.expr = .attr a := by
  rw [valid_iff_owns]
  exact forall₂_congr fun a _ => Column.exposes_iff

theorem mem_leaves_of_mem_columns {r : Relation} {c : Column} (hc : c ∈ r.columns) {a : Attribute}
    (hca : c.expr = .attr a) : a ∈ r.leaves := by
  refine List.mem_flatMap.mpr ⟨c.expr, mem_exprs.mpr (.inl ⟨c, hc, rfl⟩), ?_⟩
  rw [hca]
  exact List.mem_singleton_self a

/-- a leaf in scope is a leaf of the relation already -/
theorem mem_leaves_of_valid {r : Relation} {e : Expr} (h : r.valid e = true) {a : Attribute}
    (ha : a ∈ e.leaves) : a ∈ r.leaves := by
  obtain ⟨c, hc, hca⟩ := valid_iff.mp h a ha
  exact mem_leaves_of_mem_columns hc hca

theorem validAggregate_iff {r : Relation} {e : Expr} :
    r.validAggregate e = true ↔ r.valid e = true ∧
      (r.groups ≠ [] → ∀ a ∈ e.bareLeaves, Expr.determine r.groups a = true) := by
  unfold validAggregate valid
  rw [Expr.inGroupScope_iff, List.isEmpty_eq_false_iff]

end Relation

/-! ## induction -/

/-- the steps of an induction over expressions, for `P`, and over the relations inside of them, for `Q` -/
structure Structural (P : Expr → Prop) (Q : Relation → Prop) : Prop where
  literal : ∀ l, P (.literal l)
  attr : ∀ a, P (.attr a)
  binary : ∀ op t l r, P l → P r → P (.binary op t l r)
  aggregate : ∀ f t e, P e → P (.aggregate f t e)
  member : ∀ t e r, P e → Q r → P (.member t e r)
  relation : ∀ r : Relation, (∀ e ∈ r.exprs, P e) → Q r

namespace Structural

variable {P : Expr → Prop} {Q : Relation → Prop}

mutual

theorem of_expr (h : Structural P Q) : (e : Expr) → P e
  | .literal l => h.literal l
  | .attr a => h.attr a
  | .binary op t l r => h.binary op t l r (of_expr h l) (of_expr h r)
  | .aggregate f t e => h.aggregate f t e (of_expr h e)
  | .member t e r => h.member t e r (of_expr h e) (of_relation h r)

theorem of_exprs (h : Structural P Q) : (es : List Expr) → ∀ e ∈ es, P e
  | [] => fun _ he => absurd he List.not_mem_nil
  | e :: es => List.forall_mem_cons.mpr ⟨of_expr h e, of_exprs h es⟩

theorem of_columns (h : Structural P Q) : (cs : List Column) → ∀ c ∈ cs, P c.expr
  | [] => fun _ hc => absurd hc List.not_mem_nil
  | ⟨_, e⟩ :: cs => List.forall_mem_cons.mpr ⟨of_expr h e, of_columns h cs⟩

theorem of_relation (h : Structural P Q) : (r : Relation) → Q r
  | ⟨_, _, columns, restrictions, groups, orders⟩ => by
    refine h.relation _ fun e he => ?_
    rcases Relation.mem_exprs.mp he with ⟨c, hc, rfl⟩ | he | he | he
    · exact of_columns h columns c hc
    · exact of_exprs h restrictions e he
    · exact of_exprs h groups e he
    · exact of_exprs h orders e he

end

end Structural

end TableAlgebra
