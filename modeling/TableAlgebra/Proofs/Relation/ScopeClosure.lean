import TableAlgebra.Proofs.Relation.Derivation
import TableAlgebra.Sql.Select

/-!
# Scope closure

An operator checks its arguments against the columns in sight when it runs, and restrictions, groups and
orders outlive those columns.  The invariant that survives is about owners: whatever a derived relation
mentions is an attribute of one of the tables it was derived from.  It holds of the relations inside of
membership tests as well, each with the tables it was derived from itself.

* `Relation.ScopeClosed`             the invariant;
* `Relation.Derived.scopeClosed`     every derived relation has it;
* `Relation.Derived.scope_closure`   and so has everything nested in one.
-/

namespace TableAlgebra.Relation

/-- The relation reads the given tables and mentions nothing but their attributes. -/
structure ScopeClosed (ds : List TableDeclaration) (r : Relation) : Prop where
  /-- the sources are the tables, in order -/
  sources : r.sources = ds.map TableDeclaration.name
  /-- each leaf is an attribute of one of the tables, bound to it, and the table is a source -/
  leaf : ∀ a ∈ r.leaves, ∃ d ∈ ds, a ∈ d.bound ∧ a.owner? = some d.owner ∧ d.name ∈ r.sources
  /-- a table declared elsewhere has no part in it, not even one of the same name -/
  foreign : ∀ d : TableDeclaration, d.serial ∉ ds.map TableDeclaration.serial →
    ∀ a ∈ d.bound, a ∉ r.leaves
  /-- a leaf that is written with its table is written with a source -/
  written : ∀ a ∈ r.leaves, ∃ table ∈ r.sources, a.reference true = table ++ "." ++ a.name

namespace ScopeClosed

variable {ds es : List TableDeclaration} {r s : Relation}

theorem of_leaf (sources : r.sources = ds.map TableDeclaration.name)
    (leaf : ∀ a ∈ r.leaves, ∃ d ∈ ds, a ∈ d.bound) : ScopeClosed ds r where
  sources := sources
  leaf a ha := by
    obtain ⟨d, hd, had⟩ := leaf a ha
    refine ⟨d, hd, had, TableDeclaration.owner?_of_mem_bound had, ?_⟩
    rw [sources]
    exact List.mem_map_of_mem hd
  foreign d hd a had ha := by
    obtain ⟨e, he, hae⟩ := leaf a ha
    have howner : d.owner = e.owner := Option.some.inj
      ((TableDeclaration.owner?_of_mem_bound had).symm.trans (TableDeclaration.owner?_of_mem_bound hae))
    have hserial : d.serial = e.serial := congrArg Owner.serial howner
    exact hd (hserial ▸ List.mem_map_of_mem he)
  written a ha := by
    obtain ⟨d, hd, had⟩ := leaf a ha
    refine ⟨d.name, ?_, ?_⟩
    · rw [sources]
      exact List.mem_map_of_mem hd
    · have htable : a.table? = some d.name := by
        rw [Attribute.table?, TableDeclaration.owner?_of_mem_bound had]
        rfl
      simp [Attribute.reference, htable]

theorem mem_bound (h : ScopeClosed ds r) {a : Attribute} (ha : a ∈ r.leaves) :
    ∃ d ∈ ds, a ∈ d.bound := by
  obtain ⟨d, hd, had, -⟩ := h.leaf a ha
  exact ⟨d, hd, had⟩

theorem table {d : TableDeclaration} {t : Relation} (made : d.run = .ok t) : ScopeClosed [d] t := by
  obtain ⟨hsources, hexprs⟩ := TableDeclaration.exprs_of_run made
  refine of_leaf hsources fun a ha => ⟨d, List.mem_singleton_self d, ?_⟩
  obtain ⟨e, he, ha⟩ := List.mem_flatMap.mp ha
  rw [hexprs] at he
  obtain ⟨b, hb, rfl⟩ := List.mem_map.mp he
  rwa [List.mem_singleton.mp ha]

theorem step {op : Operation} (h : ScopeClosed ds r) (made : op.run r = .ok s) : ScopeClosed ds s := by
  obtain ⟨hsources, hexprs⟩ := Operation.exprs_of_run made
  refine of_leaf (hsources.trans h.sources) fun a ha => h.mem_bound ?_
  obtain ⟨e, he, hae⟩ := List.mem_flatMap.mp ha
  rcases hexprs e he with he | ⟨-, hv⟩
  · exact List.mem_flatMap.mpr ⟨e, he, hae⟩
  · exact mem_leaves_of_valid hv hae

theorem join {j : Relation} {on : Expr} (hr : ScopeClosed ds r) (hs : ScopeClosed es s)
    (made : r.join s on = .ok j) : ScopeClosed (ds ++ es) j := by
  obtain ⟨hsources, hexprs, hon⟩ := exprs_of_join made
  refine of_leaf (by rw [hsources, hr.sources, hs.sources, List.map_append]) fun a ha => ?_
  have hleaf : a ∈ r.leaves ∨ a ∈ s.leaves := by
    obtain ⟨e, he, hae⟩ := List.mem_flatMap.mp ha
    rcases hexprs e he with he | he | rfl
    · exact .inl (List.mem_flatMap.mpr ⟨e, he, hae⟩)
    · exact .inr (List.mem_flatMap.mpr ⟨e, he, hae⟩)
    · exact hon a hae
  rcases hleaf with ha | ha
  · obtain ⟨d, hd, had⟩ := hr.mem_bound ha
    exact ⟨d, List.mem_append_left es hd, had⟩
  · obtain ⟨d, hd, had⟩ := hs.mem_bound ha
    exact ⟨d, List.mem_append_right ds hd, had⟩

end ScopeClosed

/-- every derived relation mentions only attributes of the tables it is derived from -/
theorem Derived.scopeClosed {admitted : Expr → Prop} {ds : List TableDeclaration} {r : Relation}
    (h : Derived admitted ds r) : ScopeClosed ds r := by
  induction h with
  | table _ made => exact .table made
  | step _ _ _ _ made ih _ => exact ih.step made
  | join _ _ _ _ _ made ihr ihs _ => exact ihr.join ihs made

/-- **Scope closure.**  A derived relation mentions only attributes of the tables it is derived from,
and they are its sources; the same holds of every relation nested in its membership tests, with the
tables that one is derived from. -/
theorem Derived.scope_closure {admitted : Expr → Prop} {ds : List TableDeclaration} {r : Relation}
    (h : Derived admitted ds r) :
    ScopeClosed ds r ∧ ∀ s, r.Nests s → ∃ es, Derived admitted es s ∧ ScopeClosed es s := by
  refine ⟨h.scopeClosed, fun s hs => ?_⟩
  obtain ⟨es, he⟩ := h.of_nests hs
  exact ⟨es, he, he.scopeClosed⟩

/-! ## a restriction that outlives its column -/

section

/-- persons by number, with the year of their birth -/
def persons : TableDeclaration where
  serial := ⟨2⟩
  name := "persons"
  attributes := [⟨"id", .integer, { primaryKey := true }, .loose ⟨0⟩⟩, ⟨"born", .integer, {}, .loose ⟨1⟩⟩]
  options := ∅

def members : TableDeclaration where
  serial := ⟨4⟩
  name := "members"
  attributes := [⟨"person", .integer, {}, .loose ⟨3⟩⟩]
  options := ∅

def personTable : Relation where
  kind := .table "persons" ∅
  sources := ["persons"]
  columns := [⟨"id", .attr (⟨"id", .integer, { primaryKey := true }, .bound persons.owner⟩)⟩,
    ⟨"born", .attr (⟨"born", .integer, {}, .bound persons.owner⟩)⟩]
  restrictions := []
  groups := []
  orders := []

def memberTable : Relation where
  kind := .table "members" ∅
  sources := ["members"]
  columns := [⟨"person", .attr (⟨"person", .integer, {}, .bound members.owner⟩)⟩]
  restrictions := []
  groups := []
  orders := []

def isMember : Expr :=
  .member .boolean (.attr ⟨"id", .integer, { primaryKey := true }, .bound persons.owner⟩) memberTable

/-- the years in which members were born: the number they are found by is no column any more -/
def memberYears : Relation :=
  { personTable with
    kind := .derived
    columns := [⟨"year", .attr ⟨"born", .integer, {}, .bound persons.owner⟩⟩]
    restrictions := [isMember] }

theorem derived_personTable (admitted : Expr → Prop) : Derived admitted [persons] personTable := by
  have hid : Attribute.declare ⟨0⟩ "id" .integer { primaryKey := true } = .ok _ := rfl
  have hborn : Attribute.declare ⟨1⟩ "born" .integer {} = .ok _ := rfl
  refine .table (fun a ha => ?_) rfl
  simp only [persons, List.mem_cons, List.not_mem_nil, or_false] at ha
  rcases ha with rfl | rfl
  · exact .declare hid
  · exact .declare hborn

theorem derived_memberTable (admitted : Expr → Prop) : Derived admitted [members] memberTable := by
  have hperson : Attribute.declare ⟨3⟩ "person" .integer {} = .ok _ := rfl
  refine .table (fun a ha => ?_) rfl
  rw [List.mem_singleton.mp ha]
  exact .declare hperson

theorem derived_memberYears : Derived (fun _ => True) [persons] memberYears := by
  have hrestrict : (Operation.restrict (some isMember)).run personTable
      = .ok { personTable with kind := .derived, restrictions := [isMember] } := rfl
  have hproject : (Operation.project
        [("year", .expr (.attr ⟨"born", .integer, {}, .bound persons.owner⟩))]).run
      { personTable with kind := .derived, restrictions := [isMember] } = .ok memberYears := rfl
  refine .step_one (.step (fun _ => [members]) (derived_personTable _) (fun _ _ => trivial) ?_ hrestrict)
    rfl trivial rfl hproject
  intro e he s hs
  rw [List.mem_singleton.mp he] at hs
  rw [List.mem_singleton.mp hs]
  exact derived_memberTable _

/-- the hypothesis of `Derived.scope_closure` can be met, with a leaf that is no column any more and a
relation nested in a restriction -/
theorem scope_closure_memberYears :
    Derived (fun _ => True) [persons] memberYears ∧ ScopeClosed [persons] memberYears ∧
      ∀ s, memberYears.Nests s → ∃ es, Derived (fun _ => True) es s ∧ ScopeClosed es s :=
  ⟨derived_memberYears, Derived.scope_closure derived_memberYears⟩

end

end TableAlgebra.Relation
