import TableAlgebra.Proofs.Except
import TableAlgebra.Relation.Operators

/-!
# What the operators accept

Each operator checks its arguments and then builds one relation.  The statements here say for each of
them when it succeeds and what it builds, so that nothing else has to look into the operators:
`Attribute.declare_eq_ok`, `table_eq_ok`, `project_eq_ok`, `filter_eq_ok`, `join_eq_ok`, `group_eq_ok` and
`order_eq_ok`, and `combine_eq_ok`, `isIn_eq_ok` and `avg_eq_ok` for the builders of expressions.

* `Relation.Admits`    a relation takes an operand as the column of that name.
-/

namespace TableAlgebra

theorem requireIdentifier_eq_ok {name : String} {u : Unit} :
    requireIdentifier name = .ok u ↔ isIdentifier name = true := by
  unfold requireIdentifier
  split <;> simp_all

/-- the defaults of a column are those it sets and those its type hands down, and they fit its type -/
theorem Attribute.declare_eq_ok {serial : Serial} {name : String} {type : DataType}
    {own : Qualifiers} {a : Attribute} :
    declare serial name type own = .ok a ↔
      isIdentifier name = true ∧
        ((own.inherit type.defaults).autoIncrement = true → type.isInteger = true) ∧
        (∀ value, (own.inherit type.defaults).default = some value → type.checkDefault value = .ok ()) ∧
        { name, type, qualifiers := own.inherit type.defaults, origin := .loose serial : Attribute } = a := by
  unfold declare
  simp only [bind_eq_ok, requireIdentifier_eq_ok, exists_const]
  refine and_congr_right fun _ => ?_
  have hauto : ((own.inherit type.defaults).autoIncrement && !type.isInteger) = false ↔
      ((own.inherit type.defaults).autoIncrement = true → type.isInteger = true) := by simp
  rw [← hauto]
  cases (own.inherit type.defaults).autoIncrement && !type.isInteger with
  | true =>
    rw [if_pos rfl, bind_eq_ok]
    exact ⟨fun ⟨_, h, _⟩ => (nomatch h), fun ⟨h, _⟩ => (nomatch h)⟩
  | false =>
    rw [if_neg Bool.false_ne_true]
    cases (own.inherit type.defaults).default with
    | none => exact ⟨fun h => ⟨rfl, nofun, Except.ok.inj h⟩, fun ⟨_, _, h⟩ => h ▸ rfl⟩
    | some value =>
      simp only [Option.some.injEq, forall_eq', bind_eq_ok]
      exact ⟨fun ⟨_, hcheck, h⟩ => ⟨trivial, hcheck, Except.ok.inj h⟩, fun ⟨_, hcheck, h⟩ =>
        ⟨(), hcheck, h ▸ rfl⟩⟩

theorem firstRepeat?_eq_none {seen names : List String} :
    firstRepeat? seen names = none ↔ names.Nodup ∧ ∀ n ∈ names, n ∉ seen := by
  induction names generalizing seen with
  | nil => simp [firstRepeat?]
  | cons name rest ih =>
    rw [firstRepeat?, List.nodup_cons]
    by_cases h : name ∈ seen
    · simp [h]
    · rw [if_neg (by simpa using h), ih]
      simp only [List.mem_cons, not_or, forall_eq_or_imp]
      constructor
      · rintro ⟨hnd, hs⟩
        exact ⟨⟨fun hn => (hs name hn).1 rfl, hnd⟩, h, fun n hn => (hs n hn).2⟩
      · rintro ⟨⟨hn, hnd⟩, -, hs⟩
        exact ⟨hnd, fun n hn' => ⟨fun e => hn (e ▸ hn'), hs n hn'⟩⟩

/-! ## expressions -/

namespace Expr

variable {e l r x : Expr}

theorem combine_eq_ok {op : BinaryOp} :
    combine op l r = .ok x ↔ ∃ t, op.resultType? l.type r.type = some t ∧ .binary op t l r = x := by
  unfold combine
  cases op.resultType? l.type r.type <;> simp

theorem isIn_eq_ok {s : Relation} :
    e.isIn s = .ok x ↔ ∃ c, s.columns = [c] ∧ e.type.joinable c.expr.type = true ∧
      .member .boolean e s = x := by
  unfold isIn
  split
  · next c hc =>
    by_cases hjoin : e.type.joinable c.expr.type = true <;> simp [hc, hjoin]
  · next hcs =>
    constructor
    · exact nofun
    · rintro ⟨c, hc, -, -⟩
      exact absurd hc (hcs c)

theorem avg_eq_ok :
    e.avg = .ok x ↔ e.type.joinable .number = true ∧ .aggregate .avg .number e = x := by
  unfold avg
  split <;> simp_all

end Expr

/-! ## conditions of the operators -/

namespace Relation

theorem requireScope_eq_ok {r : Relation} {place : Place} {e : Expr} {u : Unit} :
    r.requireScope place e = .ok u ↔ r.valid e = true := by
  unfold requireScope
  split <;> simp_all

theorem requireBoolean_eq_ok {place : Place} {e : Expr} {u : Unit} :
    requireBoolean place e = .ok u ↔ e.type.isBoolean = true := by
  unfold requireBoolean
  split <;> simp_all

/-! ## tables -/

theorem table_eq_ok {serial : Serial} {name : String} {attributes : List Attribute}
    {options : OrderedMap Value} {t : Relation} :
    table serial name attributes options = .ok t ↔
      isIdentifier name = true ∧ (attributes.map Attribute.name).Nodup ∧ attributes ≠ [] ∧
        { kind := .table name options
          sources := [name]
          columns := tableColumns ⟨serial, name⟩ attributes
          restrictions := []
          groups := []
          orders := [] : Relation } = t := by
  have hnodup := @firstRepeat?_eq_none [] (attributes.map Attribute.name)
  simp only [List.not_mem_nil, not_false_eq_true, implies_true, and_true] at hnodup
  unfold table
  rw [bind_eq_ok, ← hnodup]
  simp only [requireIdentifier_eq_ok]
  cases firstRepeat? [] (attributes.map Attribute.name) with
  | some n => simp [bind, Except.bind]
  | none => cases attributes <;> simp [bind, Except.bind, pure, Except.pure]

/-! ## projections -/

/-- the relation takes the operand as an output column of that name, and the column is `c` -/
def Admits (r : Relation) (named : String × Operand) (c : Column) : Prop :=
  c.key = named.1 ∧ isIdentifier named.1 = true ∧ named.2.toExpr = .ok c.expr ∧
    r.valid c.expr = true ∧ r.validAggregate c.expr = true

theorem projectColumns_cons_eq_ok {r : Relation} {seen : List String} {key : String}
    {value : Operand} {rest : List (String × Operand)} {columns : List Column} :
    r.projectColumns seen ((key, value) :: rest) = .ok columns ↔
      ∃ c cs, c :: cs = columns ∧ r.Admits (key, value) c ∧ key ∉ seen ∧
        r.projectColumns (key :: seen) rest = .ok cs := by
  rw [projectColumns]
  simp only [bind_eq_ok, requireIdentifier_eq_ok, requireScope_eq_ok, Admits]
  constructor
  · rintro ⟨_, hkey, e, he, _, hv, h⟩
    cases ha : r.validAggregate e with
    | false => simp [ha, bind, Except.bind] at h
    | true =>
      by_cases hs : key ∈ seen
      · simp [ha, hs, bind, Except.bind] at h
      · rw [ha] at h
        simp only [Bool.not_true, Bool.false_eq_true, if_false, List.contains_eq_mem, hs,
          decide_false, bind_eq_ok] at h
        obtain ⟨cs, hcs, h⟩ := h
        exact ⟨⟨key, e⟩, cs, Except.ok.inj h, ⟨rfl, hkey, he, hv, ha⟩, hs, hcs⟩
  · rintro ⟨⟨_, e⟩, cs, rfl, ⟨rfl, hkey, he, hv, ha⟩, hs, hcs⟩
    refine ⟨(), hkey, e, he, (), hv, ?_⟩
    simp [ha, hs, hcs, bind, Except.bind, pure, Except.pure]

/-- the columns of a projection: one for each operand, under distinct names that were not seen before -/
theorem projectColumns_eq_ok {r : Relation} {seen : List String} {named : List (String × Operand)}
    {columns : List Column} :
    r.projectColumns seen named = .ok columns ↔
      List.Forall₂ r.Admits named columns ∧ (named.map Prod.fst).Nodup ∧
        ∀ n ∈ named.map Prod.fst, n ∉ seen := by
  induction named generalizing seen columns with
  | nil =>
    rw [projectColumns, List.forall₂_nil_left_iff]
    simp [eq_comm]
  | cons nv rest ih =>
    obtain ⟨key, value⟩ := nv
    rw [projectColumns_cons_eq_ok, List.map_cons, List.nodup_cons]
    simp only [List.forall₂_cons_left_iff, ih, List.mem_cons, forall_eq_or_imp, not_or]
    constructor
    · rintro ⟨c, cs, rfl, hc, hs, hcs, hnd, hseen⟩
      exact ⟨⟨c, cs, hc, hcs, rfl⟩, ⟨fun hn => (hseen key hn).1 rfl, hnd⟩, hs,
        fun n hn => (hseen n hn).2⟩
    · rintro ⟨⟨c, cs, hc, hcs, rfl⟩, ⟨hn, hnd⟩, hs, hseen⟩
      exact ⟨c, cs, rfl, hc, hs, hcs, hnd, fun n hn' => ⟨fun e => hn (e ▸ hn'), hseen n hn'⟩⟩

theorem project_eq_ok {r p : Relation} {named : List (String × Operand)} :
    r.project named = .ok p ↔
      ∃ columns, List.Forall₂ r.Admits named columns ∧ (named.map Prod.fst).Nodup ∧
        columns ≠ [] ∧ { r with kind := .derived, columns := columns } = p := by
  unfold project
  simp only [bind_eq_ok, projectColumns_eq_ok, List.not_mem_nil, not_false_eq_true, implies_true,
    and_true]
  constructor
  · rintro ⟨columns, ⟨hc, hnd⟩, h⟩
    cases columns with
    | nil => simp [bind, Except.bind] at h
    | cons c cs => exact ⟨c :: cs, hc, hnd, List.cons_ne_nil c cs, Except.ok.inj h⟩
  · rintro ⟨columns, hc, hnd, hne, rfl⟩
    refine ⟨columns, ⟨hc, hnd⟩, ?_⟩
    rw [if_neg (by simpa using hne)]
    rfl

/-! ## the other operators -/

theorem filter_eq_ok {r f : Relation} {p : Expr} :
    r.filter p = .ok f ↔ r.valid p = true ∧ p.type.isBoolean = true ∧
      { r with kind := .derived, restrictions := r.restrictions ++ [p] } = f := by
  unfold filter
  simp only [bind_eq_ok, requireScope_eq_ok, requireBoolean_eq_ok]
  exact ⟨fun ⟨_, hv, _, hb, h⟩ => ⟨hv, hb, Except.ok.inj h⟩, fun ⟨hv, hb, h⟩ => ⟨(), hv, (), hb, h ▸ rfl⟩⟩

theorem firstShared?_eq_none {r s : Relation} :
    r.firstShared? s = none ↔ ∀ key ∈ s.keys, key ∉ r.keys := by
  simp [firstShared?]

theorem join_eq_ok {r s j : Relation} {on : Expr} :
    r.join s on = .ok j ↔ on.type.isBoolean = true ∧ (∀ key ∈ s.keys, key ∉ r.keys) ∧
      { kind := .derived
        sources := r.sources ++ s.sources
        columns := r.columns ++ s.columns
        restrictions := r.restrictions ++ s.restrictions ++ [on]
        groups := r.groups
        orders := r.orders : Relation } = j ∧ j.valid on = true := by
  unfold join
  simp only [bind_eq_ok, requireBoolean_eq_ok, ← firstShared?_eq_none]
  cases r.firstShared? s with
  | some shared => simp [bind, Except.bind]
  | none =>
    simp only [bind_eq_ok, requireScope_eq_ok]
    constructor
    · rintro ⟨_, hb, _, hv, h⟩
      exact ⟨hb, trivial, Except.ok.inj h, Except.ok.inj h ▸ hv⟩
    · rintro ⟨hb, -, rfl, hv⟩
      exact ⟨(), hb, (), hv, rfl⟩

theorem group_eq_ok {r g : Relation} {key : Expr} :
    r.group key = .ok g ↔
      r.valid key = true ∧ { r with kind := .derived, groups := r.groups ++ [key] } = g := by
  unfold group
  simp only [bind_eq_ok, requireScope_eq_ok]
  exact ⟨fun ⟨_, hv, h⟩ => ⟨hv, Except.ok.inj h⟩, fun ⟨hv, h⟩ => ⟨(), hv, h ▸ rfl⟩⟩

theorem order_eq_ok {r o : Relation} {key : Expr} :
    r.order key = .ok o ↔
      r.valid key = true ∧ { r with kind := .derived, orders := r.orders ++ [key] } = o := by
  unfold order
  simp only [bind_eq_ok, requireScope_eq_ok]
  exact ⟨fun ⟨_, hv, h⟩ => ⟨hv, Except.ok.inj h⟩, fun ⟨hv, h⟩ => ⟨(), hv, h ▸ rfl⟩⟩

end Relation

end TableAlgebra
