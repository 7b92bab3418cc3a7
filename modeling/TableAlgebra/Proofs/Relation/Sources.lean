import Mathlib.Data.List.Nodup
import TableAlgebra.Proofs.Sql.Legible

/-!
# The sources of a query

A query that reads several sources writes each column with the name of its table in front.  What is written
denotes every source of that name, so it denotes one alone where the sources have distinct names.  A join
compares the names of the output columns but not those of the sources: two tables may have the same name, and
a relation may be joined with another one derived from the same table.

* `Relation.Denotes`                  what is written for a column denotes that place among the sources;
* `Relation.nodup_sources_of_join`    when a join has distinct sources;
* `Relation.Derived.denotes_one`      a query over tables of distinct names is unambiguous;
* `Relation.not_nodup_sources`        a table joined with a part of itself is read twice.
-/

namespace TableAlgebra.Relation

/-- what is written for the column with its table in front denotes that place among the sources -/
def Denotes (r : Relation) (a : Attribute) (i : Nat) : Prop :=
  ∃ source, r.sources[i]? = some source ∧ ∀ dialect, exprText dialect true (.attr a) = source ++ "." ++ a.name

variable {admitted : Expr → Prop} {ds : List TableDeclaration} {r : Relation}

theorem denotes_iff {a : Attribute} {table : String} (h : a.table? = some table) (i : Nat) :
    r.Denotes a i ↔ r.sources[i]? = some table := by
  have htext (dialect : Dialect) : exprText dialect true (.attr a) = table ++ "." ++ a.name := by
    rw [exprText_attr, Attribute.reference, h]
    rfl
  constructor
  · rintro ⟨source, hsource, hwritten⟩
    have hsame : source ++ "." ++ a.name = table ++ "." ++ a.name := (hwritten .sqlite).symm.trans (htext .sqlite)
    rw [String.append_left_inj, String.append_left_inj] at hsame
    rw [hsource, hsame]
  · exact fun hi => ⟨table, hi, htext⟩

theorem nodup_sources_of_join {s j : Relation} {on : Expr} (made : r.join s on = .ok j) :
    j.sources.Nodup ↔ r.sources.Nodup ∧ s.sources.Nodup ∧ r.sources.Disjoint s.sources := by
  rw [(exprs_of_join made).1, List.nodup_append']

/-- what is written for a column of a derived relation denotes the table it belongs to, and every other one
of that name -/
theorem Derived.denotes_owner (h : Derived admitted ds r) {a : Attribute} (ha : a ∈ r.leaves) :
    ∃ i d, ds[i]? = some d ∧ a ∈ d.bound ∧ r.Denotes a i ∧
      ∀ k, r.Denotes a k ↔ (ds.map TableDeclaration.name)[k]? = some d.name := by
  obtain ⟨d, hd, had⟩ := h.scopeClosed.mem_bound ha
  obtain ⟨i, hi⟩ := List.mem_iff_getElem?.mp hd
  have htable : a.table? = some d.name := by
    rw [Attribute.table?, TableDeclaration.owner?_of_mem_bound had]
    rfl
  have hdenotes (k : Nat) : r.Denotes a k ↔ (ds.map TableDeclaration.name)[k]? = some d.name := by
    rw [denotes_iff htable, h.scopeClosed.sources]
  refine ⟨i, d, hi, had, (hdenotes i).mpr ?_, hdenotes⟩
  rw [List.getElem?_map, hi]
  rfl

/-- **A query over tables of distinct names is unambiguous.**  Its sources are the names of the tables that
the relation is derived from, in order and as often as they were joined.  What is written for a column denotes
the table it belongs to and every other one of that name; so it denotes one source alone where the names are
distinct, which a join keeps as long as it combines relations without a source in common. -/
theorem Derived.denotes_one (h : Derived admitted ds r) :
    (r.sources.Nodup ↔ (ds.map TableDeclaration.name).Nodup) ∧
      (∀ a ∈ r.leaves, ∃ i d, ds[i]? = some d ∧ a ∈ d.bound ∧ r.Denotes a i ∧
        ∀ k, r.Denotes a k ↔ (ds.map TableDeclaration.name)[k]? = some d.name) ∧
      (r.sources.Nodup → ∀ a ∈ r.leaves, ∃! i, r.Denotes a i) ∧
      ∀ s on j, r.join s on = .ok j →
        (j.sources.Nodup ↔ r.sources.Nodup ∧ s.sources.Nodup ∧ r.sources.Disjoint s.sources) := by
  have hsources := h.scopeClosed.sources
  refine ⟨by rw [hsources], fun a ha => h.denotes_owner ha, fun hnodup a ha => ?_,
    fun s on j made => nodup_sources_of_join made⟩
  obtain ⟨i, d, -, -, hi, hdenotes⟩ := h.denotes_owner ha
  rw [hsources] at hnodup
  refine ⟨i, hi, fun k hk => ?_⟩
  have hik := (hdenotes i).mp hi
  have hlt : i < (ds.map TableDeclaration.name).length := (List.getElem?_eq_some_iff.mp hik).1
  exact ((List.getElem?_inj hlt hnodup).mp (hik.trans ((hdenotes k).mp hk).symm)).symm

/-! ## a table that is read twice -/

section

def personNumber : Expr := .attr ⟨"id", .integer, { primaryKey := true }, .bound persons.owner⟩

def personBorn : Expr := .attr ⟨"born", .integer, {}, .bound persons.owner⟩

def memberNumber : Expr := .attr ⟨"person", .integer, {}, .bound members.owner⟩

def sameNumber (e f : Expr) : Expr := .binary (.compare .eq) .boolean e f

def memberPersons : Relation :=
  { personTable with
    kind := .derived
    sources := ["persons", "members"]
    columns := personTable.columns ++ memberTable.columns
    restrictions := [sameNumber personNumber memberNumber] }

/-- the years in which persons were born, under another name -/
def birthYears : Relation := { personTable with kind := .derived, columns := [⟨"year", personBorn⟩] }

/-- persons with the years of those who were born in the same one: the table is read twice -/
def sameYear : Relation :=
  { personTable with
    kind := .derived
    sources := ["persons", "persons"]
    columns := personTable.columns ++ birthYears.columns
    restrictions := [sameNumber personBorn personBorn] }

theorem derived_memberPersons : Derived Expr.Made [persons, members] memberPersons := by
  have hjoin : personTable.join memberTable (sameNumber personNumber memberNumber) = .ok memberPersons := rfl
  refine .join (fun _ => []) (derived_personTable _) (derived_memberTable _) (Expr.made_of_literals rfl) ?_ hjoin
  exact fun s hs => absurd hs List.not_mem_nil

theorem derived_sameYear : Derived Expr.Made [persons, persons] sameYear := by
  have hproject : (Operation.project [("year", .expr personBorn)]).run personTable = .ok birthYears := rfl
  have hjoin : personTable.join birthYears (sameNumber personBorn personBorn) = .ok sameYear := rfl
  have hyears : Derived Expr.Made [persons] birthYears :=
    .step_one (derived_personTable _) rfl (Expr.made_of_literals rfl) rfl hproject
  refine .join (fun _ => []) (derived_personTable _) hyears (Expr.made_of_literals rfl) ?_ hjoin
  exact fun s hs => absurd hs List.not_mem_nil

/-- the hypotheses of `Derived.denotes_one` can be met: by the join of two tables of different names -/
theorem denotes_one_memberPersons :
    Derived Expr.Made [persons, members] memberPersons ∧ memberPersons.sources.Nodup ∧
      ∀ a ∈ memberPersons.leaves, ∃! i, memberPersons.Denotes a i :=
  ⟨derived_memberPersons, by decide,
    (Derived.denotes_one derived_memberPersons).2.2.1 (by decide)⟩

/-- A join does not keep the sources distinct, and what is written for a column may denote two of them. -/
theorem not_nodup_sources : ¬ ∀ (ds : List TableDeclaration) (r : Relation), Derived Expr.Made ds r →
    r.sources.Nodup ∧ (1 < r.sources.length → ∀ a ∈ r.leaves, ∃! i, r.Denotes a i) := by
  intro h
  exact absurd (h _ _ derived_sameYear).1 (by decide)

end

end TableAlgebra.Relation
