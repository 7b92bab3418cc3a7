import TableAlgebra.Proofs.Relation.ScopeClosure
import TableAlgebra.Proofs.Sql.Slots

/-!
# Derived relations can be read

The builders refuse every name that is no identifier and every number that is not finite, so the query
for a derived relation is read as its tokens.

* `Literal.Made`, `Expr.Made`         literals that a program can make, and expressions over them;
* `Relation.Derived.deepLegible`      a derived relation can be read, with everything nested in it.
-/

namespace TableAlgebra

/-- a literal that comes from a host value or is the label of a domain -/
inductive Literal.Made : Literal → Prop where
  | value {v : Value} {l : Literal} (made : v.toLiteral = .ok l) : Made l
  | label (v : EnumValue) : Made (.label v)

/-- an expression whose literals a program can make -/
def Expr.Made (e : Expr) : Prop := ∀ l ∈ e.literals, l.Made

theorem Expr.made_of_literals {e : Expr} (h : e.literals = []) : e.Made := by
  intro l hl
  rw [h] at hl
  exact absurd hl List.not_mem_nil

theorem Literal.Made.number {x : Binary64} (h : Literal.Made (.number x)) :
    x.isFinite = true ∧ x.toInt64? = none := by
  cases h with
  | @value v _ made =>
    cases v with
    | float y =>
      unfold Value.toLiteral at made
      cases hy : y.isFinite with
      | false => simp [hy] at made
      | true =>
        cases hi : y.toInt64? with
        | some i => simp [hy, hi] at made
        | none =>
          simp only [hy, hi, Bool.not_true, Bool.false_eq_true, if_false, Except.ok.injEq,
            Literal.number.injEq] at made
          exact made ▸ ⟨hy, hi⟩
    | bool b => exact nomatch made
    | int i => exact nomatch made
    | string s => exact nomatch made

theorem Literal.Made.legible {l : Literal} (h : l.Made) : l.Legible := by
  rintro x rfl
  exact h.number.1

theorem Attribute.Declared.isIdentifier_name {a : Attribute} (h : a.Declared) :
    isIdentifier a.name = true := by
  induction h with
  | declare made =>
    obtain ⟨hname, -, -, rfl⟩ := declare_eq_ok.mp made
    exact hname
  | bind owner _ ih => exact ih

/-- a declaration of a table under an identifier, from declared attributes -/
def TableDeclaration.Sound (d : TableDeclaration) : Prop :=
  isIdentifier d.name = true ∧ ∀ a ∈ d.attributes, a.Declared

theorem TableDeclaration.Sound.legible {d : TableDeclaration} (h : d.Sound) {a : Attribute}
    (ha : a ∈ d.bound) : a.Legible := by
  obtain ⟨b, hb, rfl⟩ := List.mem_map.mp ha
  refine ⟨(h.2 b hb).isIdentifier_name, fun table htable => ?_⟩
  rw [Attribute.table?_bind] at htable
  exact Option.some.inj htable ▸ h.1

namespace Relation

/-- there are columns, and each of them is named by an identifier -/
def WellKeyed (r : Relation) : Prop := (∀ c ∈ r.columns, isIdentifier c.key = true) ∧ r.columns ≠ []

theorem WellKeyed.table {d : TableDeclaration} {t : Relation} (declared : ∀ a ∈ d.attributes, a.Declared)
    (made : d.run = .ok t) : t.WellKeyed := by
  obtain ⟨-, -, hne, rfl⟩ := table_eq_ok.mp made
  refine ⟨fun c hc => ?_, by simpa [tableColumns] using hne⟩
  obtain ⟨a, ha, rfl⟩ := List.mem_map.mp hc
  exact (declared a ha).isIdentifier_name

theorem WellKeyed.step {op : Operation} {r s : Relation} (h : r.WellKeyed) (made : op.run r = .ok s) :
    s.WellKeyed := by
  cases op with
  | project columns =>
    obtain ⟨cs, hcs, -, hne, rfl⟩ := project_eq_ok.mp made
    refine ⟨fun c hc => ?_, hne⟩
    obtain ⟨n, -, hkey, hid, -⟩ := exists_mem_of_forall₂ hcs hc
    rwa [hkey]
  | restrict predicate =>
    cases predicate with
    | none => exact Except.ok.inj made ▸ h
    | some p =>
      obtain ⟨-, -, rfl⟩ := filter_eq_ok.mp made
      exact h
  | group key =>
    obtain ⟨-, rfl⟩ := group_eq_ok.mp made
    exact h
  | order key =>
    obtain ⟨-, rfl⟩ := order_eq_ok.mp made
    exact h

theorem WellKeyed.join {r s j : Relation} {on : Expr} (hr : r.WellKeyed) (hs : s.WellKeyed)
    (made : r.join s on = .ok j) : j.WellKeyed := by
  obtain ⟨-, -, rfl, -⟩ := join_eq_ok.mp made
  refine ⟨fun c hc => ?_, by simp [hr.2]⟩
  exact (List.mem_append.mp hc).elim (hr.1 c) (hs.1 c)

namespace Derived

variable {admitted : Expr → Prop} {ds : List TableDeclaration} {r : Relation}

theorem tables_sound (h : Derived admitted ds r) : (∀ d ∈ ds, d.Sound) ∧ ds ≠ [] := by
  induction h with
  | table declared made =>
    refine ⟨fun d hd => ?_, List.cons_ne_nil _ _⟩
    rw [List.mem_singleton.mp hd]
    exact ⟨(table_eq_ok.mp made).1, declared⟩
  | step _ _ _ _ _ ih _ => exact ih
  | join _ _ _ _ _ _ ihr ihs _ =>
    refine ⟨fun d hd => ?_, by simp [ihr.2]⟩
    exact (List.mem_append.mp hd).elim (ihr.1 d) (ihs.1 d)

theorem wellKeyed (h : Derived admitted ds r) : r.WellKeyed := by
  induction h with
  | table declared made => exact .table declared made
  | step _ _ _ _ made ih _ => exact ih.step made
  | join _ _ _ _ _ made ihr ihs _ => exact ihr.join ihs made

/-- an expression of a derived relation was given to an operator, or is an attribute of a table -/
theorem admitted_or_attr (h : Derived admitted ds r) {e : Expr} (he : e ∈ r.exprs) :
    admitted e ∨ ∃ a, e = .attr a := by
  induction h with
  | table declared made =>
    rw [(TableDeclaration.exprs_of_run made).2] at he
    obtain ⟨a, -, rfl⟩ := List.mem_map.mp he
    exact .inr ⟨a, rfl⟩
  | step _ _ given _ made ih _ =>
    rcases (Operation.exprs_of_run made).2 e he with he | ⟨he, -⟩
    · exact ih he
    · exact .inl (given e he)
  | join _ _ _ given _ made ihr ihs _ =>
    rcases (exprs_of_join made).2.1 e he with he | he | rfl
    · exact ihr he
    · exact ihs he
    · exact .inl given

theorem literals_made (h : Derived Expr.Made ds r) : ∀ l ∈ r.literals, l.Made := by
  intro l hl
  obtain ⟨e, he, hl⟩ := List.mem_flatMap.mp hl
  rcases h.admitted_or_attr he with he | ⟨a, rfl⟩
  · exact he l hl
  · exact absurd hl List.not_mem_nil

theorem legible (h : Derived Expr.Made ds r) : r.Legible where
  source s hs := by
    rw [h.scopeClosed.sources] at hs
    obtain ⟨d, hd, rfl⟩ := List.mem_map.mp hs
    exact (h.tables_sound.1 d hd).1
  sources_ne_nil := by
    rw [h.scopeClosed.sources]
    simpa using h.tables_sound.2
  key := h.wellKeyed.1
  columns_ne_nil := h.wellKeyed.2
  leaf a ha := by
    obtain ⟨d, hd, had⟩ := h.scopeClosed.mem_bound ha
    exact (h.tables_sound.1 d hd).legible had
  literal l hl := (h.literals_made l hl).legible

/-- **Derived relations can be read**, with everything nested in them. -/
theorem deepLegible (h : Derived Expr.Made ds r) : r.DeepLegible := by
  intro s hs
  obtain ⟨es, hs⟩ := h.of_nests hs
  exact hs.legible

end Derived

end Relation

end TableAlgebra
