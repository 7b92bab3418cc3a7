import TableAlgebra.Proofs.Relation.Sources
import TableAlgebra.Proofs.Sql.Slots

/-!
# The names of ordering keys

An ordering key is checked against the columns in sight and outlives them.  Where a query reads one source, an
attribute is written there by its bare name, and a later projection may give that name to another column.  A database
that looks a bare name up among the output columns first then sorts by that column.  With several sources the name of
the table stands in front, and no output column has such a name.

* `Relation.Captures`                    an output column has the name of an attribute and stands for something else;
* `Operation.runAll`, `lastColumns?`     operations in turn, and the columns of the last projection among them;
* `captures_runAll`                      a name is captured if the last projection does so;
* `Relation.Derived.orders_by_name`      which ordering keys are captured;
* `Relation.not_orders_uncaptured`       persons by number are sorted by the year of their birth.
-/

namespace TableAlgebra

/-! ## captured names -/

/-- an output column has the name of the attribute and stands for something else -/
def Relation.Captures (r : Relation) (a : Attribute) : Prop := ∃ c ∈ r.columns, c.key = a.name ∧ c.expr ≠ .attr a

/-- the columns of a projection give the name of the attribute to something else -/
def Renames (named : List (String × Operand)) (a : Attribute) : Prop :=
  ∃ n ∈ named, n.1 = a.name ∧ n.2.toExpr ≠ .ok (.attr a)

namespace Operation

def columns? : Operation → Option (List (String × Operand))
  | project columns => some columns
  | _ => none

/-- the operations one after the other, up to the first that is refused -/
def runAll : List Operation → Relation → Except AlgebraError Relation
  | [], r => .ok r
  | op :: ops, r => op.run r >>= runAll ops

/-- the columns of the last projection among the operations -/
def lastColumns? : List Operation → Option (List (String × Operand))
  | [] => none
  | op :: ops => (lastColumns? ops).or op.columns?

theorem runAll_append {ops more : List Operation} {r s t : Relation} (h : runAll ops r = .ok s)
    (hmore : runAll more s = .ok t) : runAll (ops ++ more) r = .ok t := by
  induction ops generalizing r with
  | nil =>
    obtain rfl := Except.ok.inj h
    exact hmore
  | cons op ops ih =>
    obtain ⟨r', hop, h⟩ := bind_eq_ok.mp h
    exact bind_eq_ok.mpr ⟨r', hop, ih h⟩

end Operation

variable {r s t : Relation} {a : Attribute}

theorem captures_run {op : Operation} (made : op.run r = .ok s) (a : Attribute) :
    s.Captures a ↔ match op.columns? with
      | some named => Renames named a
      | none => r.Captures a := by
  cases op with
  | project named =>
    obtain ⟨cs, hcs, -, -, rfl⟩ := Relation.project_eq_ok.mp made
    constructor
    · rintro ⟨c, hc, hkey, hexpr⟩
      obtain ⟨n, hn, hname, -, he, -⟩ := exists_mem_of_forall₂ hcs hc
      refine ⟨n, hn, hname.symm.trans hkey, fun h => hexpr ?_⟩
      exact Except.ok.inj (he.symm.trans h)
    · rintro ⟨n, hn, hname, hexpr⟩
      obtain ⟨c, hc, hkey, -, he, -⟩ := exists_mem_of_forall₂ hcs.flip hn
      exact ⟨c, hc, hkey.trans hname, fun h => hexpr (h ▸ he)⟩
  | restrict predicate =>
    cases predicate with
    | none =>
      obtain rfl := Except.ok.inj made
      exact Iff.rfl
    | some p =>
      obtain ⟨-, -, rfl⟩ := Relation.filter_eq_ok.mp made
      exact Iff.rfl
  | group key =>
    obtain ⟨-, rfl⟩ := Relation.group_eq_ok.mp made
    exact Iff.rfl
  | order key =>
    obtain ⟨-, rfl⟩ := Relation.order_eq_ok.mp made
    exact Iff.rfl

theorem captures_runAll {ops : List Operation} (made : Operation.runAll ops t = .ok r) (a : Attribute) :
    r.Captures a ↔ match Operation.lastColumns? ops with
      | some named => Renames named a
      | none => t.Captures a := by
  induction ops generalizing t with
  | nil =>
    obtain rfl := Except.ok.inj made
    exact Iff.rfl
  | cons op ops ih =>
    obtain ⟨s, hs, made⟩ := bind_eq_ok.mp made
    have hlater := ih made
    rw [Operation.lastColumns?]
    cases hlast : Operation.lastColumns? ops with
    | some named =>
      rw [hlast] at hlater
      exact hlater
    | none =>
      rw [hlast] at hlater
      rw [hlater, captures_run hs a]
      rfl

namespace Relation

variable {admitted : Expr → Prop} {ds : List TableDeclaration} {d : TableDeclaration}

/-! ## one source -/

theorem ScopeClosed.runAll {ops : List Operation} (h : ScopeClosed ds t) (made : Operation.runAll ops t = .ok r) :
    ScopeClosed ds r := by
  induction ops generalizing t with
  | nil =>
    obtain rfl := Except.ok.inj made
    exact h
  | cons op ops ih =>
    obtain ⟨s, hs, made⟩ := bind_eq_ok.mp made
    exact ih (h.step hs) made

/-- a relation that is derived from one declaration comes of the table by operations on it -/
theorem Derived.exists_runAll (h : Derived admitted ds r) (hds : ds = [d]) :
    ∃ t ops, d.run = .ok t ∧ Operation.runAll ops t = .ok r := by
  induction h with
  | @table d' t declared made =>
    obtain rfl : d' = d := List.singleton_inj.mp hds
    exact ⟨t, [], made, rfl⟩
  | @step ds op r r' tables base given nested made ih _ =>
    obtain ⟨t, ops, ht, hops⟩ := ih hds
    exact ⟨t, ops ++ [op], ht, Operation.runAll_append hops (bind_eq_ok.mpr ⟨r', made, rfl⟩)⟩
  | join tables left right given nested made =>
    have hlength := congrArg List.length hds
    have hleft := List.length_pos_iff.mpr left.tables_sound.2
    have hright := List.length_pos_iff.mpr right.tables_sound.2
    rw [List.length_append, List.length_singleton] at hlength
    omega

theorem ScopeClosed.mem_bound_of_one (h : ScopeClosed [d] r) (ha : a ∈ r.leaves) : a ∈ d.bound := by
  obtain ⟨d', hd', had⟩ := h.mem_bound ha
  rwa [List.mem_singleton.mp hd'] at had

theorem eq_of_mem_bound (made : d.run = .ok t) {b : Attribute} (ha : a ∈ d.bound) (hb : b ∈ d.bound)
    (hname : a.name = b.name) : a = b := by
  obtain ⟨-, hnodup, -, -⟩ := table_eq_ok.mp made
  obtain ⟨x, hx, rfl⟩ := List.mem_map.mp ha
  obtain ⟨y, hy, rfl⟩ := List.mem_map.mp hb
  rw [List.inj_on_of_nodup_map hnodup hx hy hname]

theorem not_captures_table (made : d.run = .ok t) (ha : a ∈ d.bound) : ¬ t.Captures a := by
  rintro ⟨c, hc, hkey, hexpr⟩
  have hrun := made
  obtain ⟨-, -, -, rfl⟩ := table_eq_ok.mp made
  obtain ⟨b, hb, rfl⟩ := List.mem_map.mp hc
  exact hexpr (congrArg Expr.attr (eq_of_mem_bound hrun (List.mem_map_of_mem hb) ha hkey))

theorem mem_leaves_of_orders (h : .attr a ∈ r.orders) : a ∈ r.leaves :=
  List.mem_flatMap.mpr ⟨.attr a, mem_exprs.mpr (.inr (.inr (.inr h))), List.mem_singleton_self a⟩

theorem captures_iff_renames {ops : List Operation} (ht : d.run = .ok t) (made : Operation.runAll ops t = .ok r)
    (ha : a ∈ r.leaves) : r.Captures a ↔ ∃ named ∈ Operation.lastColumns? ops, Renames named a := by
  have hbound := ((ScopeClosed.table ht).runAll made).mem_bound_of_one ha
  rw [captures_runAll made a]
  cases Operation.lastColumns? ops with
  | some named => simp
  | none =>
    refine ⟨fun h => absurd h (not_captures_table ht hbound), ?_⟩
    rintro ⟨named, hnamed, -⟩
    cases hnamed

/-! ## names in the query -/

theorem columnText_eq_alias {dialect : Dialect} {qualified : Bool} {c : Column} {name : String} :
    columnText dialect qualified true c = exprText dialect qualified c.expr ++ " as " ++ name ↔
      c.expr.bears c.key = false ∧ c.key = name := by
  rw [columnText_eq, aliased_eq]
  cases c.expr.bears c.key with
  | true =>
    refine ⟨fun h => ?_, fun h => absurd h.1 (by decide)⟩
    have hlength := congrArg (fun text : String => text.toList.length) h
    simp at hlength
  | false =>
    show exprText dialect qualified c.expr ++ " as " ++ c.key = _ ↔ _
    rw [String.append_right_inj]
    simp

theorem ScopeClosed.captures_iff_alias (h : ScopeClosed [d] r) (made : d.run = .ok t) (ha : a ∈ r.leaves)
    (dialect : Dialect) (qualified : Bool) : r.Captures a ↔
      ∃ c ∈ r.columns, columnText dialect qualified true c = exprText dialect qualified c.expr ++ " as " ++ a.name := by
  refine exists_congr fun c => and_congr_right fun hc => ?_
  rw [columnText_eq_alias, and_comm]
  refine and_congr_left fun hkey => ?_
  rw [hkey, ← not_iff_not, not_not, Bool.not_eq_false]
  constructor
  · intro hexpr
    rw [hexpr, Expr.bears]
    exact beq_self_eq_true a.name
  · intro hbears
    unfold Expr.bears at hbears
    cases hb : c.expr.attribute? with
    | none =>
      rw [hb] at hbears
      cases hbears
    | some b =>
      rw [hb] at hbears
      have hexpr := Expr.attribute?_eq_some.mp hb
      have hleaf := h.mem_bound_of_one (mem_leaves_of_mem_columns hc hexpr)
      rw [hexpr, eq_of_mem_bound made hleaf (h.mem_bound_of_one ha) (beq_iff_eq.mp hbears)]

/-- with its table in front, an attribute has the name of no output column -/
theorem Derived.reference_ne_key (h : Derived admitted ds r) (ha : a ∈ r.leaves) {c : Column} (hc : c ∈ r.columns)
    (dialect : Dialect) : exprText dialect true (.attr a) ≠ c.key := by
  intro heq
  obtain ⟨table, -, hwritten⟩ := h.scopeClosed.written a ha
  rw [exprText_attr, hwritten] at heq
  have hkey : isIdentifierChars c.key.toList = true := h.wellKeyed.1 c hc
  have hdot : '.' ∈ c.key.toList := by
    rw [← heq]
    simp
  exact absurd (isIdentifierPart_of_mem hkey hdot) (by decide)

/-- The ordering keys of a relation that reads one source.  They are written by their bare names.  Such a name is given
to an output column if the relation captures it, and it does so if the last of the projections that the relation was
made by gives the name to something else.  If it does not, a column of that name is the key itself. -/
structure OrdersByName (r : Relation) : Prop where
  written : ∀ a, Expr.attr a ∈ r.orders →
    ∀ dialect, exprText dialect (decide (1 < r.sources.length)) (.attr a) = a.name
  aliased : ∀ a, Expr.attr a ∈ r.orders → ∀ dialect, (r.Captures a ↔ ∃ c ∈ r.columns,
    columnText dialect (decide (1 < r.sources.length)) true c =
      exprText dialect (decide (1 < r.sources.length)) c.expr ++ " as " ++ a.name)
  traced : ∃ (d : TableDeclaration) (t : Relation) (ops : List Operation),
    d.run = .ok t ∧ Operation.runAll ops t = .ok r
  captured : ∀ (d : TableDeclaration) (t : Relation) (ops : List Operation), d.run = .ok t →
    Operation.runAll ops t = .ok r → ∀ a, Expr.attr a ∈ r.orders →
      (r.Captures a ↔ ∃ named ∈ Operation.lastColumns? ops, Renames named a)
  uncaptured : ∀ (d : TableDeclaration) (t : Relation) (ops : List Operation), d.run = .ok t →
    Operation.runAll ops t = .ok r → ∀ a, Expr.attr a ∈ r.orders →
      (∀ named ∈ Operation.lastColumns? ops, ¬ Renames named a) → ∀ c ∈ r.columns, c.key = a.name → c.expr = .attr a

/-- **Which ordering keys are captured.**  In a derived relation that reads one source, an attribute among the ordering
keys is written by its bare name, and this is the name that an output column is given if and only if the last
projection gives it to something else, before or after the key was added. -/
theorem Derived.orders_by_name (h : Derived admitted ds r) (hsingle : r.sources.length = 1) : r.OrdersByName := by
  have hscope := h.scopeClosed
  obtain ⟨d, rfl⟩ : ∃ d, ds = [d] := by
    rw [hscope.sources, List.length_map] at hsingle
    exact List.length_eq_one_iff.mp hsingle
  obtain ⟨t, ops, ht, hops⟩ := h.exists_runAll rfl
  refine ⟨fun a _ dialect => ?_, fun a ha dialect => ?_, ⟨d, t, ops, ht, hops⟩, fun d t ops ht hops a ha => ?_,
    fun d t ops ht hops a ha hnames c hc hkey => ?_⟩
  · have hbare : decide (1 < r.sources.length) = false := by simp [hsingle]
    rw [hbare, exprText_attr, Attribute.reference]
    cases a.table? <;> rfl
  · exact hscope.captures_iff_alias ht (mem_leaves_of_orders ha) dialect _
  · exact captures_iff_renames ht hops (mem_leaves_of_orders ha)
  · by_contra hexpr
    obtain ⟨named, hnamed, hrenames⟩ :=
      (captures_iff_renames ht hops (mem_leaves_of_orders ha)).mp ⟨c, hc, hkey, hexpr⟩
    exact hnames named hnamed hrenames

/-! ## a key that is captured -/

section

/-- persons in the order of their numbers, then the years of their birth under the name of the number -/
def numberedYears : Relation :=
  { personTable with kind := .derived, columns := [⟨"id", personBorn⟩], orders := [personNumber] }

theorem derived_numberedYears : Derived Expr.Made [persons] numberedYears := by
  have horder : (Operation.order personNumber).run personTable
      = .ok { personTable with kind := .derived, orders := [personNumber] } := rfl
  have hproject : (Operation.project [("id", .expr personBorn)]).run
      { personTable with kind := .derived, orders := [personNumber] } = .ok numberedYears := rfl
  have hordered := (derived_personTable _).step_one rfl (Expr.made_of_literals rfl) rfl horder
  exact hordered.step_one rfl (Expr.made_of_literals rfl) rfl hproject

/-- the hypotheses of `Derived.orders_by_name` can be met, by a relation whose ordering key is captured -/
theorem orders_by_name_numberedYears :
    Derived Expr.Made [persons] numberedYears ∧ numberedYears.sources.length = 1 ∧ numberedYears.OrdersByName :=
  ⟨derived_numberedYears, rfl, Derived.orders_by_name derived_numberedYears rfl⟩

/-- **A later projection captures the name of an ordering key.**  The query writes the number of a person as its
ordering key, and this is the name that the year of birth is given. -/
theorem not_orders_uncaptured :
    (∀ dialect, selectText dialect true numberedYears = "select born as id from persons order by id") ∧
      ¬ ∀ (ds : List TableDeclaration) (r : Relation), Derived Expr.Made ds r → r.sources.length = 1 →
        ∀ a, Expr.attr a ∈ r.orders → ∀ c ∈ r.columns, c.key = a.name → c.expr = .attr a := by
  refine ⟨fun dialect => by cases dialect <;> decide, fun h => ?_⟩
  have hexpr := h _ _ derived_numberedYears rfl _ (List.mem_singleton_self _) _ (List.mem_singleton_self _) rfl
  exact absurd (congrArg Attribute.name (Expr.attr.inj hexpr)) (by decide)

end

end Relation

end TableAlgebra
