import TableAlgebra.Proofs.Expr.Leaves
import TableAlgebra.Proofs.Relation.Operators

/-!
# Types of nodes

Every node of an expression keeps its type.  The rule of a node says what that type is, by the types of its
children, and what is asked of them.  A builder makes exactly the nodes that meet their rule, so an expression is
made of its leaves by the builders if and only if each of its nodes does.

* `Expr.nodes`            the nodes of an expression, at any depth of operands;
* `Expr.Ruled`            the rule of the topmost node;
* `Expr.combine_iff_ruled`, `isIn_iff_ruled`, `count_iff_ruled`, `avg_iff_ruled`   what the builders make;
* `Expr.Typed`            every node meets its rule.
-/

namespace TableAlgebra

namespace Expr

/-- the nodes of an expression; the relation of a membership test has nodes of its own -/
def nodes : Expr → List Expr
  | literal l => [literal l]
  | attr a => [attr a]
  | binary op t l r => binary op t l r :: (l.nodes ++ r.nodes)
  | aggregate f t e => aggregate f t e :: e.nodes
  | member t e r => member t e r :: e.nodes

/-- The rule of the topmost node.  Comparisons and tests are plain truth values, and their sides meet.  The type
of a connective is the one in which its sides meet, a truth value; that of arithmetic likewise, a number.
Aggregates are plain numbers, and a mean is taken of what meets them. -/
def Ruled : Expr → Prop
  | literal _ => True
  | attr _ => True
  | binary (.compare _) t l r => t = .boolean ∧ ∃ u, l.type.join r.type = some u
  | binary (.logic _) t l r => l.type.join r.type = some t ∧ t.isBoolean = true
  | binary (.arith _) t l r => l.type.join r.type = some t ∧ t.isNumeric = true
  | aggregate .count t _ => t = .number
  | aggregate .avg t e => t = .number ∧ ∃ u, e.type.join .number = some u
  | member t e r => t = .boolean ∧ ∃ c, r.columns = [c] ∧ ∃ u, e.type.join c.expr.type = some u

/-! ## builders -/

section

variable {op : BinaryOp} {t : DataType} {l r e : Expr} {s : Relation}

theorem combine_iff_ruled : combine op l r = .ok (binary op t l r) ↔ (binary op t l r).Ruled := by
  have hnode : combine op l r = .ok (binary op t l r) ↔ op.resultType? l.type r.type = some t := by
    rw [combine_eq_ok]
    constructor
    · rintro ⟨u, hu, h⟩
      injection h with _ h
      rwa [h] at hu
    · exact fun h => ⟨t, h, rfl⟩
  rw [hnode]
  cases op with
  | compare op =>
    show (l.type.join r.type).map (fun _ => DataType.boolean) = some t ↔ t = .boolean ∧ _
    rw [Option.map_eq_some_iff]
    constructor
    · rintro ⟨u, hu, rfl⟩
      exact ⟨rfl, u, hu⟩
    · rintro ⟨rfl, u, hu⟩
      exact ⟨u, hu, rfl⟩
  | logic op => exact Option.filter_eq_some_iff
  | arith op => exact Option.filter_eq_some_iff

theorem isIn_iff_ruled : isIn e s = .ok (member t e s) ↔ (member t e s).Ruled := by
  rw [isIn_eq_ok]
  constructor
  · rintro ⟨c, hc, hjoin, h⟩
    injection h with ht
    exact ⟨ht.symm, c, hc, Option.isSome_iff_exists.mp hjoin⟩
  · rintro ⟨rfl, c, hc, hjoin⟩
    exact ⟨c, hc, Option.isSome_iff_exists.mpr hjoin, rfl⟩

theorem count_iff_ruled : count e = aggregate .count t e ↔ (aggregate .count t e).Ruled := by
  constructor
  · intro h
    injection h with _ ht
    exact ht.symm
  · rintro rfl
    rfl

theorem avg_iff_ruled : avg e = .ok (aggregate .avg t e) ↔ (aggregate .avg t e).Ruled := by
  rw [avg_eq_ok]
  constructor
  · rintro ⟨hjoin, h⟩
    injection h with _ ht
    exact ⟨ht.symm, Option.isSome_iff_exists.mp hjoin⟩
  · rintro ⟨rfl, hjoin⟩
    exact ⟨Option.isSome_iff_exists.mpr hjoin, rfl⟩

end

/-! ## expressions -/

/-- every node meets its rule -/
def Typed (e : Expr) : Prop := ∀ n ∈ e.nodes, n.Ruled

section

variable {op : BinaryOp} {f : AggregateFunc} {t : DataType} {l r e x : Expr} {s : Relation}

theorem typed_literal (v : Literal) : (literal v).Typed := List.forall_mem_singleton.mpr trivial

theorem typed_attr (a : Attribute) : (attr a).Typed := List.forall_mem_singleton.mpr trivial

theorem typed_binary : (binary op t l r).Typed ↔ (binary op t l r).Ruled ∧ l.Typed ∧ r.Typed := by
  unfold Typed
  rw [nodes, List.forall_mem_cons, List.forall_mem_append]

theorem typed_aggregate : (aggregate f t e).Typed ↔ (aggregate f t e).Ruled ∧ e.Typed := by
  unfold Typed
  rw [nodes, List.forall_mem_cons]

theorem typed_member : (member t e s).Typed ↔ (member t e s).Ruled ∧ e.Typed := by
  unfold Typed
  rw [nodes, List.forall_mem_cons]

end

end Expr

end TableAlgebra
