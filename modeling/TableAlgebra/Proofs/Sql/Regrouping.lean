import TableAlgebra.Proofs.Sql.Precedence

/-!
# What an expression is read as

A binary node stands in parentheses of its own and a membership test does not.  Where an operator that
binds as tightly as a membership test, or more tightly, has one as its right operand, the operator takes
the left operand of the test, and the test takes what the operator makes of it:
`(a = b in (…))` is read as `((a = b) in (…))`.  Everywhere else an expression is read as its own tree.

* `Expr.tree`, `Relation.tree`       the tree of an expression, and that of a query;
* `Expr.asRead`, `Relation.asRead`   what their texts are read as;
* `Expr.Clear`                       no test stands where an operator takes its operand;
* `Expr.asRead_eq_tree_iff`          it is read as its own tree if and only if it is clear.
-/

namespace TableAlgebra

/-! ## the tree of an expression -/

def Attribute.sqlName (a : Attribute) (qualified : Bool) : SqlExpr :=
  .name (if qualified then a.table? else none) a.name

/-- restrictions, joined by `and` from the left -/
def conjunction : List SqlExpr → Option SqlExpr
  | [] => none
  | e :: es => some (es.foldl (.binary (.logic .and)) e)

mutual

/-- the tree of an expression: each operator, function and test over the operands that it has -/
def Expr.tree (qualified : Bool) : Expr → SqlExpr
  | .literal l => .constant (slotTokens l.slots)
  | .attr a => a.sqlName qualified
  | .binary op _ l r => .binary op (l.tree qualified) (r.tree qualified)
  | .aggregate f _ e => .call f.name (e.tree qualified)
  | .member _ e r => .member (e.tree qualified) r.tree

def exprsTrees (qualified : Bool) : List Expr → List SqlExpr
  | [] => []
  | e :: es => e.tree qualified :: exprsTrees qualified es

def columnsTrees (qualified : Bool) : List Column → List SqlExpr
  | [] => []
  | ⟨_, e⟩ :: cs => e.tree qualified :: columnsTrees qualified cs

/-- the tree of a query without the names of its output columns -/
def Relation.tree : Relation → SqlQuery
  | ⟨_, sources, columns, restrictions, groups, orders⟩ =>
    ⟨columnsTrees (qualifies sources) columns, sources,
      conjunction (exprsTrees (qualifies sources) restrictions),
      exprsTrees (qualifies sources) groups, exprsTrees (qualifies sources) orders⟩

end

/-! ## what is read -/

mutual

/-- What an expression is read as behind an operator, which `wrap` gives its right operand: the tests that
were made last are left over, and are made of what the operator gives. -/
def Expr.readAfter (qualified : Bool) (wrap : SqlExpr → SqlExpr) : Expr → SqlExpr
  | .literal l => wrap (.constant (slotTokens l.slots))
  | .attr a => wrap (a.sqlName qualified)
  | .binary op _ l r =>
    wrap (if membershipLevel ≤ op.level then r.readAfter qualified (.binary op (l.readAfter qualified id))
      else .binary op (l.readAfter qualified id) (r.readAfter qualified id))
  | .aggregate f _ e => wrap (.call f.name (e.readAfter qualified id))
  | .member _ e r => .member (e.readAfter qualified wrap) r.asRead

def exprsAsRead (qualified : Bool) : List Expr → List SqlExpr
  | [] => []
  | e :: es => e.readAfter qualified id :: exprsAsRead qualified es

def columnsAsRead (qualified : Bool) : List Column → List SqlExpr
  | [] => []
  | ⟨_, e⟩ :: cs => e.readAfter qualified id :: columnsAsRead qualified cs

def Relation.asRead : Relation → SqlQuery
  | ⟨_, sources, columns, restrictions, groups, orders⟩ =>
    ⟨columnsAsRead (qualifies sources) columns, sources,
      conjunction (exprsAsRead (qualifies sources) restrictions),
      exprsAsRead (qualifies sources) groups, exprsAsRead (qualifies sources) orders⟩

end

def Expr.asRead (qualified : Bool) (e : Expr) : SqlExpr := e.readAfter qualified id

section

variable (qualified : Bool)

theorem exprsTrees_eq_map (es : List Expr) : exprsTrees qualified es = es.map (Expr.tree qualified) := by
  induction es with
  | nil => rfl
  | cons e es ih => rw [exprsTrees, ih, List.map_cons]

theorem columnsTrees_eq_map (cs : List Column) :
    columnsTrees qualified cs = (cs.map Column.expr).map (Expr.tree qualified) := by
  induction cs with
  | nil => rfl
  | cons c cs ih =>
    obtain ⟨key, e⟩ := c
    rw [columnsTrees, ih, List.map_cons, List.map_cons]

theorem exprsAsRead_eq_map (es : List Expr) :
    exprsAsRead qualified es = es.map (Expr.asRead qualified) := by
  induction es with
  | nil => rfl
  | cons e es ih => rw [exprsAsRead, ih, List.map_cons, Expr.asRead]

theorem columnsAsRead_eq_map (cs : List Column) :
    columnsAsRead qualified cs = (cs.map Column.expr).map (Expr.asRead qualified) := by
  induction cs with
  | nil => rfl
  | cons c cs ih =>
    obtain ⟨key, e⟩ := c
    rw [columnsAsRead, ih, List.map_cons, List.map_cons, Expr.asRead]

end

theorem Relation.tree_eq (r : Relation) :
    r.tree = ⟨(r.columns.map Column.expr).map (Expr.tree (qualifies r.sources)), r.sources,
      conjunction (r.restrictions.map (Expr.tree (qualifies r.sources))),
      r.groups.map (Expr.tree (qualifies r.sources)), r.orders.map (Expr.tree (qualifies r.sources))⟩ := by
  obtain ⟨kind, sources, columns, restrictions, groups, orders⟩ := r
  rw [tree, columnsTrees_eq_map, exprsTrees_eq_map, exprsTrees_eq_map, exprsTrees_eq_map]

theorem Relation.asRead_eq (r : Relation) :
    r.asRead = ⟨(r.columns.map Column.expr).map (Expr.asRead (qualifies r.sources)), r.sources,
      conjunction (r.restrictions.map (Expr.asRead (qualifies r.sources))),
      r.groups.map (Expr.asRead (qualifies r.sources)), r.orders.map (Expr.asRead (qualifies r.sources))⟩ := by
  obtain ⟨kind, sources, columns, restrictions, groups, orders⟩ := r
  rw [asRead, columnsAsRead_eq_map, exprsAsRead_eq_map, exprsAsRead_eq_map, exprsAsRead_eq_map]

namespace Expr

variable {qualified : Bool} {op : BinaryOp} {t : DataType} {e l r : Expr} {s : Relation}

theorem readAfter_of_tests_nil (wrap : SqlExpr → SqlExpr) : {e : Expr} → e.tests = [] →
    e.readAfter qualified wrap = wrap (e.asRead qualified)
  | literal _, _ => rfl
  | attr _, _ => rfl
  | binary _ _ _ _, _ => rfl
  | aggregate _ _ _, _ => rfl
  | member _ _ _, h => nomatch h

theorem readAfter_ne_binary (wrap : SqlExpr → SqlExpr) (x y : SqlExpr) : {e : Expr} → e.tests ≠ [] →
    e.readAfter qualified wrap ≠ .binary op x y
  | literal _, h => absurd rfl h
  | attr _, h => absurd rfl h
  | binary _ _ _ _, h => absurd rfl h
  | aggregate _ _ _, h => absurd rfl h
  | member _ _ _, _ => nofun

theorem asRead_binary : (binary op t l r).asRead qualified =
    if membershipLevel ≤ op.level then r.readAfter qualified (.binary op (l.asRead qualified))
    else .binary op (l.asRead qualified) (r.asRead qualified) :=
  rfl

/-! ## where an expression is read as its own tree -/

/-- the operators of an expression, each with its right operand; membership tests are not looked into -/
def rights : Expr → List (BinaryOp × Expr)
  | literal _ => []
  | attr _ => []
  | binary op _ l r => (op, r) :: (l.rights ++ r.rights)
  | aggregate _ _ e => e.rights
  | member _ e _ => e.rights

/-- no operator that binds as tightly as a membership test has one as its right operand -/
def Apart (e : Expr) : Prop := ∀ p ∈ e.rights, membershipLevel ≤ p.1.level → p.2.tests = []

end Expr

/-- none of the expressions in the query and in what is nested in it has a test where an operator takes its
operand -/
def Relation.Clear (r : Relation) : Prop := ∀ s, r.Nests s → ∀ e ∈ s.exprs, e.Apart

/-- No operator that binds as tightly as a membership test, or more tightly, has one as its right operand: not
in the expression and not in the queries of its tests, at any depth. -/
structure Expr.Clear (e : Expr) : Prop where
  apart : e.Apart
  subselect : ∀ r ∈ e.subselects, r.Clear

namespace Expr

variable {op : BinaryOp} {t : DataType} {e l r : Expr} {s : Relation}

theorem clear_literal (l : Literal) : (literal l).Clear :=
  ⟨fun _ h => absurd h List.not_mem_nil, fun _ h => absurd h List.not_mem_nil⟩

theorem clear_attr (a : Attribute) : (attr a).Clear :=
  ⟨fun _ h => absurd h List.not_mem_nil, fun _ h => absurd h List.not_mem_nil⟩

theorem clear_binary : (binary op t l r).Clear ↔
    (membershipLevel ≤ op.level → r.tests = []) ∧ l.Clear ∧ r.Clear := by
  constructor
  · intro h
    obtain ⟨hhere, hbelow⟩ := List.forall_mem_cons.mp h.apart
    obtain ⟨hl, hr⟩ := List.forall_mem_append.mp hbelow
    obtain ⟨hsl, hsr⟩ := List.forall_mem_append.mp h.subselect
    exact ⟨hhere, ⟨hl, hsl⟩, ⟨hr, hsr⟩⟩
  · rintro ⟨hhere, hl, hr⟩
    exact ⟨List.forall_mem_cons.mpr ⟨hhere, List.forall_mem_append.mpr ⟨hl.apart, hr.apart⟩⟩,
      List.forall_mem_append.mpr ⟨hl.subselect, hr.subselect⟩⟩

theorem clear_aggregate {f : AggregateFunc} : (aggregate f t e).Clear ↔ e.Clear :=
  ⟨fun h => ⟨h.apart, h.subselect⟩, fun h => ⟨h.apart, h.subselect⟩⟩

theorem clear_member : (member t e s).Clear ↔ e.Clear ∧ s.Clear := by
  constructor
  · intro h
    obtain ⟨he, hs⟩ := List.forall_mem_append.mp h.subselect
    exact ⟨⟨h.apart, he⟩, hs s (List.mem_singleton_self s)⟩
  · rintro ⟨he, hs⟩
    exact ⟨he.apart, List.forall_mem_append.mpr ⟨he.subselect, List.forall_mem_singleton.mpr hs⟩⟩

end Expr

theorem Relation.clear_iff {r : Relation} : r.Clear ↔ ∀ e ∈ r.exprs, e.Clear := by
  constructor
  · intro h e he
    exact ⟨h r .refl e he, fun s hs t ht => h t (ht.of_subselect he hs)⟩
  · intro h s hs
    rcases Relation.ReflTransGen.cases_head hs with rfl | ⟨t, ht, hts⟩
    · exact fun e he => (h e he).apart
    · obtain ⟨e, he, hte⟩ := List.mem_flatMap.mp ht
      exact (h e he).subselect t hte s hts

theorem conjunction_inj {es fs : List SqlExpr} (hlength : es.length = fs.length) :
    conjunction es = conjunction fs ↔ es = fs := by
  have hfold : ∀ (es fs : List SqlExpr) (e f : SqlExpr), es.length = fs.length →
      (es.foldl (.binary (.logic .and)) e = fs.foldl (.binary (.logic .and)) f ↔ e = f ∧ es = fs) := by
    intro es
    induction es with
    | nil =>
      intro fs e f h
      rw [List.length_eq_zero_iff.mp h.symm]
      simp
    | cons x es ih =>
      intro fs e f h
      cases fs with
      | nil => exact nomatch h
      | cons y fs =>
        rw [List.foldl_cons, List.foldl_cons, ih fs _ _ (Nat.succ.inj h), SqlExpr.binary.injEq,
          List.cons.injEq]
        simp [and_assoc]
  cases es with
  | nil =>
    rw [List.length_eq_zero_iff.mp hlength.symm]
    simp
  | cons e es =>
    cases fs with
    | nil => exact nomatch hlength
    | cons f fs =>
      rw [conjunction, conjunction, Option.some.injEq, hfold es fs e f (Nat.succ.inj hlength),
        List.cons.injEq]

/-- **Where precedence does no harm.**  An expression is read as its own tree if and only if it is clear, and
so is a query. -/
theorem structural_asRead : Structural (fun e => ∀ qualified, e.asRead qualified = e.tree qualified ↔ e.Clear)
    (fun r => r.asRead = r.tree ↔ r.Clear) where
  literal l _ := ⟨fun _ => Expr.clear_literal l, fun _ => rfl⟩
  attr a _ := ⟨fun _ => Expr.clear_attr a, fun _ => rfl⟩
  binary op t l r hl hr qualified := by
    have hparts : SqlExpr.binary op (l.asRead qualified) (r.asRead qualified)
        = (Expr.binary op t l r).tree qualified ↔ l.Clear ∧ r.Clear := by
      rw [Expr.tree, SqlExpr.binary.injEq, hl, hr]
      exact and_iff_right rfl
    rw [Expr.asRead_binary, Expr.clear_binary]
    split
    · next htight =>
      by_cases htests : r.tests = []
      · rw [Expr.readAfter_of_tests_nil _ htests, hparts]
        exact (and_iff_right fun _ => htests).symm
      · constructor
        · intro h
          exact absurd h (Expr.readAfter_ne_binary _ _ _ htests)
        · intro h
          exact absurd (h.1 htight) htests
    · next hloose =>
      rw [hparts]
      exact (and_iff_right fun h => absurd h hloose).symm
  aggregate f t e he qualified := by
    rw [Expr.clear_aggregate, ← he qualified]
    show SqlExpr.call f.name _ = SqlExpr.call f.name _ ↔ _
    rw [SqlExpr.call.injEq]
    exact and_iff_right rfl
  member t e r he hr qualified := by
    rw [Expr.clear_member, ← he qualified, ← hr]
    show SqlExpr.member _ _ = SqlExpr.member _ _ ↔ _
    rw [SqlExpr.member.injEq]
    rfl
  relation r h := by
    have hmap : ∀ es : List Expr, (∀ e ∈ es, e ∈ r.exprs) →
        (es.map (Expr.asRead (qualifies r.sources)) = es.map (Expr.tree (qualifies r.sources))
          ↔ ∀ e ∈ es, e.Clear) := by
      intro es hes
      rw [List.map_inj_left]
      exact forall₂_congr fun e he => h e (hes e he) _
    have hcolumns := hmap (r.columns.map Column.expr) fun e he => by simp [Relation.exprs, he]
    have hrestrictions := hmap r.restrictions fun e he => by simp [Relation.exprs, he]
    have hgroups := hmap r.groups fun e he => by simp [Relation.exprs, he]
    have horders := hmap r.orders fun e he => by simp [Relation.exprs, he]
    rw [Relation.asRead_eq, Relation.tree_eq, SqlQuery.mk.injEq, conjunction_inj (by simp), hcolumns,
      hrestrictions, hgroups, horders, Relation.clear_iff]
    unfold Relation.exprs
    rw [List.forall_mem_append, List.forall_mem_append, List.forall_mem_append]
    simp only [true_and, and_assoc]

theorem Expr.asRead_eq_tree_iff (qualified : Bool) (e : Expr) :
    e.asRead qualified = e.tree qualified ↔ e.Clear :=
  structural_asRead.of_expr e qualified

end TableAlgebra
