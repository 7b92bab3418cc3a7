import TableAlgebra.Database.Transaction
import TableAlgebra.Proofs.Database.Run
import TableAlgebra.Proofs.Relation.Sources
import TableAlgebra.Proofs.Relation.Typing

/-!
# The columns of a result

A row keeps its columns sorted by name, whatever the order in which they were set, and a result takes its columns
from the first row.  So the order that a relation gives its columns is lost on the way through the rows: the
columns of a result are those of the relation, sorted.

* `ResultRow.mem_columns`, `pairwise_columns`   the columns of a row are those that were set, and they are sorted;
* `Transaction.runs_query`                      a query is a statement sent and its answer;
* `Transaction.query_columns`                   the columns of its result;
* `Transaction.not_query_columns`               they need not be in the order of the relation.
-/

namespace TableAlgebra

/-! ## sorted names -/

namespace ResultRow

variable {column name : String} {value : Json} {entries : List (String × Json)}

/-- names in strictly increasing order -/
def Sorted (entries : List (String × Json)) : Prop := (entries.map Prod.fst).Pairwise (· < ·)

theorem mem_setSorted :
    name ∈ (setSorted column value entries).map Prod.fst ↔ name = column ∨ name ∈ entries.map Prod.fst := by
  induction entries with
  | nil => simp [setSorted]
  | cons e es ih =>
    rw [setSorted]
    split
    · simp
    · split
      · next heq => simp [heq]
      · rw [List.map_cons, List.mem_cons, ih, List.map_cons, List.mem_cons]
        exact or_left_comm

theorem sorted_setSorted (h : Sorted entries) : Sorted (setSorted column value entries) := by
  induction entries with
  | nil => exact List.pairwise_singleton _ _
  | cons e es ih =>
    obtain ⟨hfirst, hrest⟩ := List.pairwise_cons.mp h
    rw [setSorted]
    split
    · next hlt =>
      have hall : ∀ other ∈ es.map Prod.fst, column < other := fun other ho => String.lt_trans hlt (hfirst other ho)
      exact List.pairwise_cons.mpr ⟨List.forall_mem_cons.mpr ⟨hlt, hall⟩, h⟩
    · split
      · next heq =>
        subst heq
        exact h
      · next hge hne =>
        -- the column belongs behind `e`, and the names behind `e` are it and those there were
        have hlt : e.1 < column := by
          by_contra hle
          exact hne (String.le_antisymm (String.not_lt.mp hle) (String.not_lt.mp hge))
        refine List.pairwise_cons.mpr ⟨fun other ho => ?_, ih hrest⟩
        rcases mem_setSorted.mp ho with rfl | ho
        · exact hlt
        · exact hfirst other ho

theorem mem_foldl_setSorted {values : List (String × Json)} :
    name ∈ (values.foldl (fun es v => setSorted v.1 v.2 es) entries).map Prod.fst ↔
      name ∈ entries.map Prod.fst ∨ name ∈ values.map Prod.fst := by
  induction values generalizing entries with
  | nil => simp
  | cons v vs ih =>
    rw [List.foldl_cons, ih, mem_setSorted, List.map_cons, List.mem_cons]
    tauto

theorem sorted_foldl_setSorted {values : List (String × Json)} (h : Sorted entries) :
    Sorted (values.foldl (fun es v => setSorted v.1 v.2 es) entries) := by
  induction values generalizing entries with
  | nil => exact h
  | cons v vs ih => exact ih (sorted_setSorted h)

/-- the columns of a row are those that were set -/
theorem mem_columns {values : List (String × Json)} :
    name ∈ (ofList values).columns ↔ name ∈ values.map Prod.fst := by
  rw [columns, ofList, mem_foldl_setSorted, List.map_nil]
  exact or_iff_right List.not_mem_nil

theorem pairwise_columns (values : List (String × Json)) : (ofList values).columns.Pairwise (· < ·) :=
  sorted_foldl_setSorted (show Sorted [] from .nil)

end ResultRow

theorem eq_of_perm_of_sorted {names others : List String} (h : names.Perm others) (hn : names.Pairwise (· < ·))
    (ho : others.Pairwise (· < ·)) : names = others :=
  h.eq_of_pairwise (fun _ _ _ _ hlt hgt => absurd hgt (String.lt_asymm hlt)) hn ho

/-- a row that was given a value under each of some distinct names has them as its columns, sorted -/
theorem ResultRow.columns_perm {values : List (String × Json)} {names : List String}
    (hvalues : values.map Prod.fst = names) (hnames : names.Nodup) : (ofList values).columns.Perm names := by
  have hnodup : (ofList values).columns.Nodup := (pairwise_columns values).imp String.ne_of_lt
  rw [List.perm_ext_iff_of_nodup hnodup hnames]
  intro name
  rw [mem_columns, hvalues]

/-! ## queries -/

namespace Transaction

variable {σ : Type} {admitted : Expr → Prop} {ds : List TableDeclaration} {r : Relation}

/-- a query sends one statement, and its result is made up of the rows of the answer -/
theorem runs_query (tx : Transaction σ) (r : Relation) {s s' : σ} {rows : List ResultRow}
    (h : tx.database.driver (selectStatement tx.database.dialect r true) s = (.ok rows, s')) :
    (tx.query r).Runs s (.ok (.ofRows rows)) s' := by
  have hsend : (tx.run (selectStatement tx.database.dialect r true)).Runs s (.ok rows) s' :=
    .bind (.report _ s) (.send h)
  have hcommand : (tx.command (.select r true)).Runs s (.ok rows) s' :=
    .bind (.compile rfl s) hsend
  exact hcommand.map QueryResult.ofRows

/-- **A result has the columns of its relation, sorted by name.**  If the driver answers the query of a derived
relation with rows, and each of them was given a value under every output name of the relation, one name after the
other, then the query succeeds with these rows in their order.  The columns of the result are the output names in
increasing order, as in every row; so they are in the order of the relation exactly if that one is increasing. -/
theorem query_columns (tx : Transaction σ) (h : Relation.Derived admitted ds r)
    {answer : List (List (String × Json))} (hanswer : answer ≠ [])
    (hrows : ∀ row ∈ answer, row.map Prod.fst = r.keys) {s s' : σ}
    (hdriver : tx.database.driver (selectStatement tx.database.dialect r true) s = (.ok (answer.map .ofList), s')) :
    ∃ q, (tx.query r).Runs s (.ok q) s' ∧
      q.rows = answer.map .ofList ∧ q.rowCount = answer.length ∧
      (∀ row ∈ q.rows, row.columns = q.columns) ∧
      q.columns.Perm r.keys ∧ q.columns.Pairwise (· < ·) ∧
      (q.columns = r.keys ↔ r.keys.Pairwise (· < ·)) := by
  obtain ⟨first, rest, rfl⟩ := List.exists_cons_of_ne_nil hanswer
  have hperm : ∀ row ∈ first :: rest, (ResultRow.ofList row).columns.Perm r.keys :=
    fun row hrow => ResultRow.columns_perm (hrows row hrow) h.nodup_keys
  have hfirst := hperm first List.mem_cons_self
  have hsorted := ResultRow.pairwise_columns first
  refine ⟨.ofRows ((first :: rest).map .ofList), tx.runs_query r hdriver, rfl, ?_, fun row hrow => ?_,
    hfirst, hsorted, ?_⟩
  · exact List.length_map _
  · obtain ⟨values, hvalues, rfl⟩ := List.mem_map.mp hrow
    have hsame : (ResultRow.ofList values).columns.Perm (ResultRow.ofList first).columns :=
      (hperm values hvalues).trans hfirst.symm
    exact eq_of_perm_of_sorted hsame (ResultRow.pairwise_columns values) hsorted
  · constructor
    · exact fun heq => heq ▸ hsorted
    · exact fun hkeys => eq_of_perm_of_sorted hfirst hsorted hkeys

section

/-- a transaction on a database whose driver answers every statement with the given rows -/
def answering (rows : List (List (String × Json))) : Transaction Unit where
  id := ⟨0⟩
  database := { dialect := .sqlite, driver := fun _ s => (.ok (rows.map .ofList), s) }

/-- the hypotheses of `query_columns` can be met: by the rows of a join -/
theorem query_columns_memberPersons :
    let answer := [[("id", Json.int 1), ("born", .int 1815), ("person", .int 1)]]
    Relation.Derived Expr.Made [Relation.persons, Relation.members] Relation.memberPersons ∧ answer ≠ [] ∧
      (∀ row ∈ answer, row.map Prod.fst = Relation.memberPersons.keys) ∧
      ∃ q, ((answering answer).query Relation.memberPersons).Runs () (.ok q) () ∧ q.rowCount = 1 := by
  intro answer
  have hrows : ∀ row ∈ answer, row.map Prod.fst = Relation.memberPersons.keys := by decide
  obtain ⟨q, hq, -, hcount, -⟩ := query_columns (answering answer) Relation.derived_memberPersons
    (List.cons_ne_nil _ _) hrows (s := ()) rfl
  exact ⟨Relation.derived_memberPersons, List.cons_ne_nil _ _, hrows, q, hq, hcount⟩

/-- **A result does not keep the order of the columns.**  The columns of persons are `id` and `born`, in this order;
those of a result are `born` and `id`. -/
theorem not_query_columns : ¬ ∀ (ds : List TableDeclaration) (r : Relation), Relation.Derived Expr.Made ds r →
    ∀ answer : List (List (String × Json)), answer ≠ [] → (∀ row ∈ answer, row.map Prod.fst = r.keys) →
      ∃ q, ((answering answer).query r).Runs () (.ok q) () ∧ q.columns = r.keys := by
  intro h
  have hrows : ∀ row ∈ [[("id", Json.int 1), ("born", .int 1815)]], row.map Prod.fst = Relation.personTable.keys := by
    decide
  obtain ⟨q, hq, hcolumns⟩ := h _ _ (Relation.derived_personTable _) _ (List.cons_ne_nil _ _) hrows
  obtain ⟨hsame, -⟩ := hq.unique (runs_query _ _ rfl)
  rw [Except.ok.inj hsame] at hcolumns
  exact absurd hcolumns (by decide)

end

end Transaction

end TableAlgebra
