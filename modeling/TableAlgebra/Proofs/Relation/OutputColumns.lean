import TableAlgebra.Proofs.Relation.GroupScope
import TableAlgebra.Proofs.Relation.Typing
import TableAlgebra.Sql.Command

/-!
# What can be done with an output column

An output column of a relation is looked up by its name, and its expression may be handed back to the operators.
They look for each attribute in it among the output columns.  A column that is an attribute is found there, under
whatever name it is given out.  A computed column is not: it can be used again only where the attributes it is
computed from are given out beside it.

* `Relation.attr_of_mem`               the column of a name is the one given out under it;
* `Relation.valid_of_bare`             attributes are in scope, and so is what is computed from none;
* `Relation.ownColumns`                the columns of a relation under their own names;
* `Relation.project_ownColumns`        when they may be projected, and that nothing comes of it;
* `Relation.Derived.output_columns`    what can be done with the output columns of a derived relation;
* `Relation.not_output_columns`        a computed column that cannot be used.
-/

namespace TableAlgebra.Relation

variable {admitted : Expr → Prop} {ds : List TableDeclaration} {r p : Relation}

/-! ## one column -/

/-- where names are distinct, the column of a name is the one given out under it -/
theorem attr_of_mem (hnodup : r.keys.Nodup) {c : Column} (hc : c ∈ r.columns) : r.attr c.key = .ok c.expr := by
  have hsome : (r.columns.find? (·.key == c.key)).isSome = true :=
    List.find?_isSome.mpr ⟨c, hc, beq_self_eq_true c.key⟩
  obtain ⟨found, hfound⟩ := Option.isSome_iff_exists.mp hsome
  have hmem : found ∈ r.columns := List.mem_of_find?_eq_some hfound
  have hkey : found.key = c.key := by simpa using List.find?_some hfound
  have hsame : found = c := List.inj_on_of_nodup_map hnodup hmem hc hkey
  rw [attr, column?, hfound, hsame]
  rfl

/-- an output column that is an attribute is in scope, and so is one that is computed from none -/
theorem valid_of_bare {c : Column} (hc : c ∈ r.columns) (hbare : (∃ a, c.expr = .attr a) ∨ c.expr.leaves = []) :
    r.valid c.expr = true := by
  rw [valid_iff]
  intro a ha
  rcases hbare with ⟨b, hb⟩ | hnone
  · rw [hb] at ha
    exact List.mem_singleton.mp ha ▸ ⟨c, hc, hb⟩
  · rw [hnone] at ha
    exact absurd ha List.not_mem_nil

theorem order_iff_valid {e : Expr} : (∃ o, r.order e = .ok o) ↔ r.valid e = true :=
  ⟨fun ⟨_, made⟩ => (order_eq_ok.mp made).1, fun h => ⟨_, order_eq_ok.mpr ⟨h, rfl⟩⟩⟩

theorem group_iff_valid {e : Expr} : (∃ g, r.group e = .ok g) ↔ r.valid e = true :=
  ⟨fun ⟨_, made⟩ => (group_eq_ok.mp made).1, fun h => ⟨_, group_eq_ok.mpr ⟨h, rfl⟩⟩⟩

/-! ## all columns -/

def ownColumns (r : Relation) : List (String × Operand) := r.columns.map fun c => (c.key, .expr c.expr)

theorem fst_ownColumns (r : Relation) : r.ownColumns.map Prod.fst = r.keys := by
  rw [ownColumns, List.map_map]
  rfl

theorem eq_of_admits_ownColumns {cs : List Column} (h : List.Forall₂ r.Admits r.ownColumns cs) : cs = r.columns := by
  rw [ownColumns, List.forall₂_map_left_iff] at h
  have heq : List.Forall₂ (· = ·) r.columns cs := by
    refine h.imp fun c d hcd => ?_
    obtain ⟨hkey, -, hexpr, -, -⟩ := hcd
    obtain ⟨key, e⟩ := c
    obtain ⟨key', e'⟩ := d
    obtain rfl : key' = key := hkey
    obtain rfl : e = e' := Except.ok.inj hexpr
    rfl
  exact (List.forall₂_eq_eq_eq ▸ heq).symm

/-- A relation without groups may give out its columns once more under their own names if all of them are in scope,
and then it stays what it is, a table apart. -/
theorem project_ownColumns (hkeyed : r.WellKeyed) (hnodup : r.keys.Nodup) (hgroups : r.groups = []) :
    r.project r.ownColumns = .ok p ↔
      (∀ c ∈ r.columns, r.valid c.expr = true) ∧ { r with kind := .derived } = p := by
  rw [project_eq_ok]
  constructor
  · rintro ⟨cs, hcs, -, -, rfl⟩
    obtain rfl := eq_of_admits_ownColumns hcs
    refine ⟨fun c hc => ?_, rfl⟩
    obtain ⟨n, -, -, -, -, hvalid, -⟩ := exists_mem_of_forall₂ hcs hc
    exact hvalid
  · rintro ⟨hvalid, rfl⟩
    refine ⟨r.columns, ?_, fst_ownColumns r ▸ hnodup, hkeyed.2, rfl⟩
    rw [ownColumns, List.forall₂_map_left_iff, List.forall₂_same]
    intro c hc
    have haggregate : r.validAggregate c.expr = true := (validAggregate_eq_valid hgroups c.expr).trans (hvalid c hc)
    exact ⟨rfl, hkeyed.1 c hc, rfl, hvalid c hc, haggregate⟩

/-- a query does not show whether its relation is a table -/
theorem selectStatement_kind (r : Relation) (kind : RelationKind) (d : Dialect) (rename : Bool) :
    selectStatement d { r with kind } rename = selectStatement d r rename := by
  cases r
  simp only [selectStatement, selectText]

/-- **What can be done with an output column.**  Under each output name a derived relation gives out one column, and
under this name its expression is found.  The expression is in scope exactly if every attribute in it is an output
column, so always if it is an attribute itself or has none in it; and exactly then the relation may be ordered and
grouped by it.  Without groups, all columns may be projected under their own names exactly if each of them is in
scope, and the query stays the same. -/
theorem Derived.output_columns (h : Derived admitted ds r) :
    (∀ key ∈ r.keys, ∃ e, r.attr key = .ok e ∧ (∀ c ∈ r.columns, c.key = key → c.expr = e) ∧
      (r.valid e = true ↔ ∀ a ∈ e.leaves, ∃ c ∈ r.columns, c.expr = .attr a) ∧
      ((∃ a, e = .attr a) ∨ e.leaves = [] → r.valid e = true) ∧
      ((∃ o, r.order e = .ok o) ↔ r.valid e = true) ∧ ((∃ g, r.group e = .ok g) ↔ r.valid e = true)) ∧
    (r.groups = [] →
      ((∃ p, r.project r.ownColumns = .ok p) ↔ ∀ key ∈ r.keys, ∃ e, r.attr key = .ok e ∧ r.valid e = true) ∧
      ∀ p, r.project r.ownColumns = .ok p → ∀ d rename, selectStatement d p rename = selectStatement d r rename) := by
  have hattr {c : Column} (hc : c ∈ r.columns) : r.attr c.key = .ok c.expr := attr_of_mem h.nodup_keys hc
  refine ⟨fun key hkey => ?_, fun hgroups => ⟨?_, fun p hp d rename => ?_⟩⟩
  · obtain ⟨c, hc, rfl⟩ := List.mem_map.mp hkey
    have hunique : ∀ b ∈ r.columns, b.key = c.key → b.expr = c.expr := by
      intro b hb hkey
      have hfound := hattr hb
      rw [hkey, hattr hc] at hfound
      exact (Except.ok.inj hfound).symm
    exact ⟨c.expr, hattr hc, hunique, valid_iff, valid_of_bare hc, order_iff_valid, group_iff_valid⟩
  · simp only [project_ownColumns h.wellKeyed h.nodup_keys hgroups, exists_and_left, exists_eq', and_true]
    constructor
    · intro hvalid key hkey
      obtain ⟨c, hc, rfl⟩ := List.mem_map.mp hkey
      exact ⟨c.expr, hattr hc, hvalid c hc⟩
    · intro hkeys c hc
      obtain ⟨e, he, hvalid⟩ := hkeys c.key (List.mem_map_of_mem hc)
      exact Except.ok.inj ((hattr hc).symm.trans he) ▸ hvalid
  · obtain ⟨-, rfl⟩ := (project_ownColumns h.wellKeyed h.nodup_keys hgroups).mp hp
    exact selectStatement_kind r .derived d rename

section

/-- the year after the one in which a person was born -/
def nextYear : Expr := .binary (.arith .add) .integer personBorn (.literal (.integer 1))

def nextYears : Relation := { personTable with kind := .derived, columns := [⟨"next", nextYear⟩] }

theorem made_nextYear : nextYear.Made := by
  intro l hl
  obtain rfl : l = .integer 1 := List.mem_singleton.mp hl
  exact .value (show (Value.int 1).toLiteral = .ok (.integer 1) from rfl)

theorem derived_nextYears : Derived Expr.Made [persons] nextYears := by
  have hproject : (Operation.project [("next", .expr nextYear)]).run personTable = .ok nextYears := rfl
  exact .step_one (derived_personTable _) rfl made_nextYear rfl hproject

/-- the hypothesis of `Derived.output_columns` can be met: by a relation whose columns may be projected -/
theorem output_columns_memberPersons :
    Derived Expr.Made [persons, members] memberPersons ∧
      ((∃ p, memberPersons.project memberPersons.ownColumns = .ok p) ↔
        ∀ key ∈ memberPersons.keys, ∃ e, memberPersons.attr key = .ok e ∧ memberPersons.valid e = true) :=
  ⟨derived_memberPersons, ((Derived.output_columns derived_memberPersons).2 rfl).1⟩

/-- A computed column need not be in scope of the relation that gives it out: the year in which a person was born
is not given out beside the year after it. -/
theorem not_output_columns : ¬ ∀ (ds : List TableDeclaration) (r : Relation), Derived Expr.Made ds r →
    ∀ key ∈ r.keys, ∃ e, r.attr key = .ok e ∧ r.valid e = true ∧ ∃ o, r.order e = .ok o := by
  intro h
  obtain ⟨e, he, hvalid, -⟩ := h _ _ derived_nextYears "next" (by decide)
  have hnext : nextYears.attr "next" = .ok nextYear := rfl
  obtain rfl : nextYear = e := Except.ok.inj (hnext.symm.trans he)
  exact absurd hvalid (by decide)

end

end TableAlgebra.Relation
