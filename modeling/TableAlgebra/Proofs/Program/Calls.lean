import TableAlgebra.Proofs.Program.Basic
import TableAlgebra.Proofs.Relation.Derivation

/-!
# What calls make

A call looks up its arguments and runs one builder.  `Call.Yields` says for each call which arguments it found
and what the builder made of them, so that an invariant of what is made has one case for each builder, without the
way there.

* `Call.Yields`, `Call.yields_of_run`   what a call makes at a workbench;
* `Workbench.forall_operand?`           what an argument stands for.
-/

namespace TableAlgebra

/-- what a call makes at a workbench, with the arguments it found -/
inductive Call.Yields (s : Workbench) : Call → Made → Prop where
  | enumeration {labels : List String} {b : BaseType} (made : BaseType.enumeration labels = .ok b) :
      Yields s (.enumeration labels) (.type (.base b))
  | domain {name : String} {base : Nat} {defaults : Qualifiers} {t : DataType} {d : Domain}
      (type : s.type? base = some t) (made : Domain.declare s.next name t defaults = .ok d) :
      Yields s (.domain name base defaults) (.type (.domain d))
  | label {number : Nat} {text : String} {d : Domain} {v : EnumValue} (domain : s.domain? number = some d)
      (made : d.value text = .ok v) : Yields s (.label number text) (.label v)
  | declare {name : String} {number : Nat} {own : Qualifiers} {t : DataType} {a : Attribute}
      (type : s.type? number = some t) (made : Attribute.declare s.next name t own = .ok a) :
      Yields s (.declare name number own) (.attr a)
  | table {name : String} {numbers : List Nat} {options : OrderedMap Value} {as : List Attribute} {t : Relation}
      (attributes : numbers.mapM s.attribute? = some as)
      (made : TableDeclaration.run ⟨s.next, name, as, options⟩ = .ok t) :
      Yields s (.table name numbers options) (.relation t)
  | column {number : Nat} {key : String} {r : Relation} {e : Expr} (relation : s.relation? number = some r)
      (made : r.attr key = .ok e) : Yields s (.column number key) (.expr e)
  | apply {op : BinaryOp} {left right : Argument} {l r e : Expr} {o : Operand} (leftSide : s.expr? left = some l)
      (rightSide : s.operand? right = some o) (wrapped : o.toExpr = .ok r) (made : Expr.combine op l r = .ok e) :
      Yields s (.apply op left right) (.expr e)
  | member {operand : Argument} {number : Nat} {e x : Expr} {r : Relation} (tested : s.expr? operand = some e)
      (relation : s.relation? number = some r) (made : e.isIn r = .ok x) :
      Yields s (.member operand number) (.expr x)
  | count {operand : Argument} {e : Expr} (counted : s.expr? operand = some e) :
      Yields s (.count operand) (.expr e.count)
  | avg {operand : Argument} {e x : Expr} (averaged : s.expr? operand = some e) (made : e.avg = .ok x) :
      Yields s (.avg operand) (.expr x)
  | project {number : Nat} {columns : List (String × Argument)} {operands : List (String × Operand)}
      {r p : Relation} (relation : s.relation? number = some r) (given : s.named? columns = some operands)
      (made : (Operation.project operands).run r = .ok p) : Yields s (.project number columns) (.relation p)
  | restrict {number : Nat} {argument : Option Argument} {predicate : Option Expr} {r f : Relation}
      (relation : s.relation? number = some r) (given : s.condition? argument = some predicate)
      (made : (Operation.restrict predicate).run r = .ok f) : Yields s (.restrict number argument) (.relation f)
  | join {left right : Nat} {argument : Argument} {a b j : Relation} {on : Expr}
      (leftSide : s.relation? left = some a) (rightSide : s.relation? right = some b)
      (given : s.expr? argument = some on) (made : a.join b on = .ok j) :
      Yields s (.join left right argument) (.relation j)
  | group {number : Nat} {argument : Argument} {key : Expr} {r g : Relation}
      (relation : s.relation? number = some r) (given : s.expr? argument = some key)
      (made : (Operation.group key).run r = .ok g) : Yields s (.group number argument) (.relation g)
  | order {number : Nat} {argument : Argument} {key : Expr} {r o : Relation}
      (relation : s.relation? number = some r) (given : s.expr? argument = some key)
      (made : (Operation.order key).run r = .ok o) : Yields s (.order number argument) (.relation o)

theorem Call.yields_of_run {s : Workbench} {c : Call} {m : Made} (hm : c.run s = some m) : c.Yields s m := by
  cases c with
  | enumeration labels =>
    obtain ⟨b, hb, rfl⟩ := Option.map_eq_some_iff.mp hm
    exact .enumeration (toOption_eq_some.mp hb)
  | domain name base defaults =>
    obtain ⟨t, ht, hm⟩ := Option.bind_eq_some_iff.mp hm
    obtain ⟨d, hd, hm⟩ := Option.bind_eq_some_iff.mp hm
    cases hm
    exact .domain ht (toOption_eq_some.mp hd)
  | label number text =>
    obtain ⟨d, hd, hm⟩ := Option.bind_eq_some_iff.mp hm
    obtain ⟨v, hv, hm⟩ := Option.bind_eq_some_iff.mp hm
    cases hm
    exact .label hd (toOption_eq_some.mp hv)
  | declare name type own =>
    obtain ⟨t, ht, hm⟩ := Option.bind_eq_some_iff.mp hm
    obtain ⟨a, ha, hm⟩ := Option.bind_eq_some_iff.mp hm
    cases hm
    exact .declare ht (toOption_eq_some.mp ha)
  | table name attributes options =>
    obtain ⟨as, has, hm⟩ := Option.bind_eq_some_iff.mp hm
    obtain ⟨t, ht, hm⟩ := Option.bind_eq_some_iff.mp hm
    cases hm
    exact .table has (toOption_eq_some.mp ht)
  | column relation key =>
    obtain ⟨r, hr, hm⟩ := Option.bind_eq_some_iff.mp hm
    obtain ⟨e, he, hm⟩ := Option.bind_eq_some_iff.mp hm
    cases hm
    exact .column hr (toOption_eq_some.mp he)
  | apply op left right =>
    obtain ⟨l, hl, hm⟩ := Option.bind_eq_some_iff.mp hm
    obtain ⟨o, ho, hm⟩ := Option.bind_eq_some_iff.mp hm
    obtain ⟨e, he, hm⟩ := Option.bind_eq_some_iff.mp hm
    cases hm
    obtain ⟨r, hr, he⟩ := bind_eq_ok.mp (toOption_eq_some.mp he)
    exact .apply hl ho hr he
  | member operand relation =>
    obtain ⟨e, he, hm⟩ := Option.bind_eq_some_iff.mp hm
    obtain ⟨r, hr, hm⟩ := Option.bind_eq_some_iff.mp hm
    obtain ⟨x, hx, hm⟩ := Option.bind_eq_some_iff.mp hm
    cases hm
    exact .member he hr (toOption_eq_some.mp hx)
  | count operand =>
    obtain ⟨e, he, hm⟩ := Option.bind_eq_some_iff.mp hm
    cases hm
    exact .count he
  | avg operand =>
    obtain ⟨e, he, hm⟩ := Option.bind_eq_some_iff.mp hm
    obtain ⟨x, hx, hm⟩ := Option.bind_eq_some_iff.mp hm
    cases hm
    exact .avg he (toOption_eq_some.mp hx)
  | project relation columns =>
    obtain ⟨r, hr, hm⟩ := Option.bind_eq_some_iff.mp hm
    obtain ⟨operands, ho, hm⟩ := Option.bind_eq_some_iff.mp hm
    obtain ⟨p, hp, hm⟩ := Option.bind_eq_some_iff.mp hm
    cases hm
    exact .project hr ho (toOption_eq_some.mp hp)
  | restrict relation predicate =>
    obtain ⟨r, hr, hm⟩ := Option.bind_eq_some_iff.mp hm
    obtain ⟨condition, hc, hm⟩ := Option.bind_eq_some_iff.mp hm
    obtain ⟨f, hf, hm⟩ := Option.bind_eq_some_iff.mp hm
    cases hm
    exact .restrict hr hc (toOption_eq_some.mp hf)
  | join left right on =>
    obtain ⟨a, ha, hm⟩ := Option.bind_eq_some_iff.mp hm
    obtain ⟨b, hb, hm⟩ := Option.bind_eq_some_iff.mp hm
    obtain ⟨e, he, hm⟩ := Option.bind_eq_some_iff.mp hm
    obtain ⟨j, hj, hm⟩ := Option.bind_eq_some_iff.mp hm
    cases hm
    exact .join ha hb he (toOption_eq_some.mp hj)
  | group relation key =>
    obtain ⟨r, hr, hm⟩ := Option.bind_eq_some_iff.mp hm
    obtain ⟨e, he, hm⟩ := Option.bind_eq_some_iff.mp hm
    obtain ⟨g, hg, hm⟩ := Option.bind_eq_some_iff.mp hm
    cases hm
    exact .group hr he (toOption_eq_some.mp hg)
  | order relation key =>
    obtain ⟨r, hr, hm⟩ := Option.bind_eq_some_iff.mp hm
    obtain ⟨e, he, hm⟩ := Option.bind_eq_some_iff.mp hm
    obtain ⟨o, ho, hm⟩ := Option.bind_eq_some_iff.mp hm
    cases hm
    exact .order hr he (toOption_eq_some.mp ho)

/-! ## arguments -/

namespace Workbench

variable {s : Workbench}

theorem mem_made_of_find? {number : Nat} {m : Made} (hm : s.find? number = some m) : some m ∈ s.made := by
  unfold Workbench.find? at hm
  rw [Option.join_eq_some_iff] at hm
  exact List.mem_of_getElem? hm

theorem mem_made_of_relation? {number : Nat} {r : Relation} (hr : s.relation? number = some r) :
    some (.relation r) ∈ s.made := by
  obtain ⟨m, hm, hmr⟩ := Option.bind_eq_some_iff.mp hr
  cases m <;> simp only [Made.relation?, Option.some.injEq, reduceCtorEq] at hmr
  exact hmr ▸ mem_made_of_find? hm

/-- An argument stands for a literal, an attribute or an expression: what holds of these holds of it. -/
theorem forall_operand? {P : Expr → Prop} (literal : ∀ l, P (.literal l))
    (attr : ∀ a, some (.attr a) ∈ s.made → P (.attr a)) (expr : ∀ e, some (.expr e) ∈ s.made → P e)
    {argument : Argument} {o : Operand} (ho : s.operand? argument = some o) {e : Expr} (he : o.toExpr = .ok e) :
    P e := by
  cases argument with
  | value v =>
    cases ho
    cases hl : v.toLiteral with
    | error err => simp [Operand.toExpr, hl, Except.map] at he
    | ok l =>
      simp only [Operand.toExpr, hl, Except.map, Except.ok.injEq] at he
      exact he ▸ literal l
  | made number =>
    obtain ⟨m, hm, hmo⟩ := Option.bind_eq_some_iff.mp ho
    have hmem := mem_made_of_find? hm
    cases m with
    | label v =>
      cases hmo
      cases he
      exact literal _
    | attr a =>
      cases hmo
      cases he
      exact attr a hmem
    | expr e =>
      cases hmo
      cases he
      exact expr e hmem
    | type t => exact nomatch hmo
    | relation r => exact nomatch hmo

end Workbench

theorem forall_mem_of_mapM {α β : Type} {f : α → Option β} {p : β → Prop}
    (hf : ∀ a b, f a = some b → p b) {as : List α} {bs : List β} (h : as.mapM f = some bs) :
    ∀ b ∈ bs, p b := by
  induction as generalizing bs with
  | nil =>
    cases h
    exact fun b hb => absurd hb List.not_mem_nil
  | cons a as ih =>
    rw [List.mapM_cons] at h
    obtain ⟨c, hc, h⟩ := Option.bind_eq_some_iff.mp h
    obtain ⟨cs, hcs, h⟩ := Option.bind_eq_some_iff.mp h
    cases h
    exact List.forall_mem_cons.mpr ⟨hf a c hc, ih hcs⟩

namespace Workbench

variable {s : Workbench} {P : Expr → Prop}
  (h : ∀ {argument : Argument} {o : Operand}, s.operand? argument = some o → ∀ {e : Expr}, o.toExpr = .ok e → P e)

include h

/-- what holds of the expressions that arguments stand for holds of those given to a projection or a restriction -/
theorem forall_exprs_project {columns : List (String × Argument)} {operands : List (String × Operand)}
    (given : s.named? columns = some operands) : ∀ e ∈ (Operation.project operands).exprs, P e := by
  have hoperands : ∀ n ∈ operands, ∀ e, n.2.toExpr = .ok e → P e := by
    refine forall_mem_of_mapM (fun argument n hn => ?_) given
    obtain ⟨o, ho, rfl⟩ := Option.map_eq_some_iff.mp hn
    exact fun e he => h ho he
  intro e he
  obtain ⟨n, hn, he⟩ := List.mem_filterMap.mp he
  exact hoperands n hn e (toOption_eq_some.mp he)

theorem forall_exprs_restrict {argument : Option Argument} {predicate : Option Expr}
    (given : s.condition? argument = some predicate) : ∀ e ∈ (Operation.restrict predicate).exprs, P e := by
  intro e he
  obtain rfl := Option.mem_toList.mp he
  cases argument with
  | none => exact nomatch given
  | some argument =>
    obtain ⟨x, hx, heq⟩ := Option.map_eq_some_iff.mp given
    obtain ⟨o, ho, hoe⟩ := Option.bind_eq_some_iff.mp hx
    exact Option.some.inj heq ▸ h ho (toOption_eq_some.mp hoe)

end Workbench

end TableAlgebra
