import TableAlgebra.Proofs.Relation.Derivation

/-!
# Grouped relations

A projection of a grouped relation is checked: what stands outside of every aggregate is determined by
a grouping key.  Operators that follow keep it so for the columns of the projection, since the groups
only grow.  A join takes over the columns of its right side as they are, and these are not checked again
before the next projection.

* `Expr.Grouped`               the expression is determined by the groups outside of its aggregates;
* `Relation.Continued`         a relation made from another one by operators on it, and the columns that
                               joins have brought in since the last projection;
* `Relation.Continued.columns_grouped`   all columns but those are determined by the groups;
* `Relation.not_grouped_after_join`      those need not be.
-/

namespace TableAlgebra

/-- every attribute of the expression that stands below no aggregate is determined by a grouping key
that is an attribute -/
def Expr.Grouped (groups : List Expr) (e : Expr) : Prop :=
  ∀ a ∈ e.bareLeaves, ∃ k, Expr.attr k ∈ groups ∧ a.dependsOn k = true

theorem Expr.Grouped.mono {groups more : List Expr} {e : Expr} (h : e.Grouped groups)
    (hsub : groups ⊆ more) : e.Grouped more := by
  intro a ha
  obtain ⟨k, hk, hak⟩ := h a ha
  exact ⟨k, hsub hk, hak⟩

namespace Relation

/-- in a grouped relation the check of a projection asks for the scope and for `Expr.Grouped` -/
theorem validAggregate_iff_grouped {r : Relation} {e : Expr} (hr : r.groups ≠ []) :
    r.validAggregate e = true ↔ r.valid e = true ∧ e.Grouped r.groups := by
  rw [validAggregate_iff]
  refine and_congr_right fun _ => ⟨fun h a ha => Expr.determine_iff.mp (h hr a ha), fun h _ a ha => ?_⟩
  exact Expr.determine_iff.mpr (h a ha)

/-- the columns of a projection of a grouped relation are determined by its groups, and the groups
stay -/
theorem grouped_of_project {r p : Relation} {named : List (String × Operand)} (hr : r.groups ≠ [])
    (h : r.project named = .ok p) : p.groups = r.groups ∧ ∀ c ∈ p.columns, c.expr.Grouped p.groups := by
  obtain ⟨cs, hcs, -, -, rfl⟩ := project_eq_ok.mp h
  refine ⟨rfl, fun c hc => ?_⟩
  obtain ⟨n, -, -, -, -, -, ha⟩ := exists_mem_of_forall₂ hcs hc
  show c.expr.Grouped r.groups
  exact ((validAggregate_iff_grouped hr).mp ha).2

/-! ## what follows a projection -/

/-- The relation is made from `p` by operators on `p`.  The list holds the columns that joins have taken
over from their right sides since the last projection, in order. -/
inductive Continued (p : Relation) : List Column → Relation → Prop where
  | refl : Continued p [] p
  | project {merged : List Column} {r r' : Relation} {named : List (String × Operand)}
      (before : Continued p merged r) (made : r.project named = .ok r') : Continued p [] r'
  | restrict {merged : List Column} {r r' : Relation} {predicate : Option Expr}
      (before : Continued p merged r) (made : r.restrict predicate = .ok r') : Continued p merged r'
  | join {merged : List Column} {r s j : Relation} {on : Expr} (before : Continued p merged r)
      (made : r.join s on = .ok j) : Continued p (merged ++ s.columns) j
  | group {merged : List Column} {r r' : Relation} {key : Expr} (before : Continued p merged r)
      (made : r.group key = .ok r') : Continued p merged r'
  | order {merged : List Column} {r r' : Relation} {key : Expr} (before : Continued p merged r)
      (made : r.order key = .ok r') : Continued p merged r'

/-- grouped, and all columns in front of the merged ones are determined by the groups -/
def OwnGrouped (merged : List Column) (r : Relation) : Prop :=
  r.groups ≠ [] ∧ ∃ own, r.columns = own ++ merged ∧ ∀ c ∈ own, c.expr.Grouped r.groups

theorem OwnGrouped.of_project {r p : Relation} {named : List (String × Operand)} (hr : r.groups ≠ [])
    (h : r.project named = .ok p) : OwnGrouped [] p := by
  obtain ⟨hg, hc⟩ := grouped_of_project hr h
  exact ⟨hg ▸ hr, p.columns, (List.append_nil _).symm, hc⟩

/-- an operator that leaves the columns alone and only adds groups keeps the invariant -/
theorem OwnGrouped.of_columns_eq {merged : List Column} {r r' : Relation} (h : OwnGrouped merged r)
    (hc : r'.columns = r.columns) (hg : r.groups ⊆ r'.groups) : OwnGrouped merged r' := by
  obtain ⟨hne, own, hown, hgr⟩ := h
  refine ⟨fun h0 => hne (List.subset_nil.mp (h0 ▸ hg)), own, hc.trans hown, fun c hc => ?_⟩
  exact (hgr c hc).mono hg

theorem OwnGrouped.join {merged : List Column} {r s j : Relation} {on : Expr}
    (h : OwnGrouped merged r) (made : r.join s on = .ok j) : OwnGrouped (merged ++ s.columns) j := by
  obtain ⟨hne, own, hown, hgr⟩ := h
  obtain ⟨-, -, rfl, -⟩ := join_eq_ok.mp made
  refine ⟨hne, own, ?_, hgr⟩
  show r.columns ++ s.columns = own ++ (merged ++ s.columns)
  rw [hown, List.append_assoc]

/-- what one operator after another keeps of a grouped projection -/
theorem Continued.ownGrouped {merged : List Column} {p r : Relation} (hp : OwnGrouped [] p)
    (h : Continued p merged r) : OwnGrouped merged r := by
  induction h with
  | refl => exact hp
  | project _ made ih => exact .of_project ih.1 made
  | @restrict _ _ _ predicate _ made ih =>
    cases predicate with
    | none =>
      cases Except.ok.inj made
      exact ih
    | some predicate =>
      obtain ⟨-, -, rfl⟩ := filter_eq_ok.mp made
      exact ih.of_columns_eq rfl (List.Subset.refl _)
  | join _ made ih => exact ih.join made
  | group _ made ih =>
    obtain ⟨-, rfl⟩ := group_eq_ok.mp made
    exact ih.of_columns_eq rfl (List.subset_append_left _ _)
  | order _ made ih =>
    obtain ⟨-, rfl⟩ := order_eq_ok.mp made
    exact ih.of_columns_eq rfl (List.Subset.refl _)

/-- **Grouping stays respected, joined columns apart.**  After a projection of a grouped relation and
any operators on it, the columns are those the last projection checked, all determined by the groups,
and behind them those that joins have taken over since; so all columns are determined by the groups
exactly if these are. -/
theorem Continued.columns_grouped {g p r : Relation} {named : List (String × Operand)}
    {merged : List Column} (hg : g.groups ≠ []) (hp : g.project named = .ok p)
    (h : Continued p merged r) :
    (∃ own, r.columns = own ++ merged ∧ ∀ c ∈ own, c.expr.Grouped r.groups) ∧
      ((∀ c ∈ r.columns, c.expr.Grouped r.groups) ↔ ∀ c ∈ merged, c.expr.Grouped r.groups) := by
  obtain ⟨-, own, hown, hgr⟩ := h.ownGrouped (.of_project hg hp)
  refine ⟨⟨own, hown, hgr⟩, ?_⟩
  rw [hown, List.forall_mem_append]
  exact ⟨And.right, fun hm => ⟨hgr, hm⟩⟩

/-! ## a join behind a grouped projection -/

section

def salesColumn (name : String) : Attribute := ⟨name, .integer, {}, .bound ⟨⟨0⟩, "sales"⟩⟩

def stockColumn (name : String) : Attribute := ⟨name, .integer, {}, .bound ⟨⟨1⟩, "stock"⟩⟩

/-- sold items with their amounts, by item -/
def salesByItem : Relation where
  kind := .derived
  sources := ["sales"]
  columns := [⟨"item", .attr (salesColumn "item")⟩, ⟨"amount", .attr (salesColumn "amount")⟩]
  restrictions := []
  groups := [.attr (salesColumn "item")]
  orders := []

def salesCounts : Relation :=
  { salesByItem with
    columns := [⟨"item", .attr (salesColumn "item")⟩,
      ⟨"count", (Expr.attr (salesColumn "amount")).count⟩] }

def stock : Relation where
  kind := .table "stock" ∅
  sources := ["stock"]
  columns := [⟨"part", .attr (stockColumn "part")⟩, ⟨"place", .attr (stockColumn "place")⟩]
  restrictions := []
  groups := []
  orders := []

/-- an item in stock is a sold one -/
def sameItem : Expr :=
  .binary (.compare .eq) .boolean (.attr (salesColumn "item")) (.attr (stockColumn "part"))

/-- each item with the number of its sales, and the places where it is stored -/
def storedCounts : Relation where
  kind := .derived
  sources := ["sales", "stock"]
  columns := salesCounts.columns ++ stock.columns
  restrictions := [sameItem]
  groups := [.attr (salesColumn "item")]
  orders := []

theorem project_salesByItem : salesByItem.project
    [("item", .expr (.attr (salesColumn "item"))),
      ("count", .expr (Expr.attr (salesColumn "amount")).count)] = .ok salesCounts := rfl

theorem continued_storedCounts : Continued salesCounts stock.columns storedCounts :=
  .join .refl (show salesCounts.join stock sameItem = .ok storedCounts from rfl)

/-- the hypotheses of `Continued.columns_grouped` can be met, with columns taken over by a join -/
theorem storedCounts_columns_grouped :
    (salesByItem.groups ≠ [] ∧ Continued salesCounts stock.columns storedCounts) ∧
      (∃ own, storedCounts.columns = own ++ stock.columns ∧
        ∀ c ∈ own, c.expr.Grouped storedCounts.groups) ∧
      ((∀ c ∈ storedCounts.columns, c.expr.Grouped storedCounts.groups) ↔
        ∀ c ∈ stock.columns, c.expr.Grouped storedCounts.groups) :=
  have hgroups : salesByItem.groups ≠ [] := List.cons_ne_nil _ _
  ⟨⟨hgroups, continued_storedCounts⟩,
    Continued.columns_grouped hgroups project_salesByItem continued_storedCounts⟩

/-- **Grouping is not respected by joins.**  A column taken over from the right side of a join need not
be determined by the groups of the left side: the place of an item is not determined by the item. -/
theorem not_grouped_after_join :
    ¬ ∀ (g p r : Relation) (named : List (String × Operand)) (merged : List Column),
      g.groups ≠ [] → g.project named = .ok p → Continued p merged r →
        ∀ c ∈ r.columns, c.expr.Grouped r.groups := by
  intro h
  have hplace : (Expr.attr (stockColumn "place")).Grouped storedCounts.groups :=
    h salesByItem salesCounts storedCounts _ stock.columns (List.cons_ne_nil _ _) project_salesByItem
      continued_storedCounts ⟨"place", .attr (stockColumn "place")⟩ (by simp [storedCounts, stock])
  obtain ⟨k, hk, hd⟩ := hplace (stockColumn "place") (List.mem_singleton_self _)
  have hkey : k = salesColumn "item" := by simpa [storedCounts] using hk
  subst hkey
  exact absurd hd (by decide)

end

end Relation

end TableAlgebra
