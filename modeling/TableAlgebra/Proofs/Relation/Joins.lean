import TableAlgebra.Proofs.Relation.Clauses

/-!
# What joins hand on

A join reads what both sides read, gives out the columns of both and keeps the restrictions of both.  It takes
groups and orders from its left side alone: those of the right side are lost, and the query asks for something
else without an error.

* `Relation.join_eq_error_iff`     when a join is refused;
* `Relation.Merges`, `Relation.join_merges`   a join merges both sides where the right one has no groups or orders;
* `Derivation`, `Derivation.lost`   how a relation is derived, and what does not reach one of its clauses;
* `Derivation.clause_of_run`       all restrictions reach the query, and of groups and orders those that are not
                                   given on the right side of a join.
-/

namespace TableAlgebra

namespace Relation

/-- A join is refused if its predicate is no truth value, if an output name is taken, or if the predicate has a
leaf that is a column of neither side. -/
theorem join_eq_error_iff {a b : Relation} {on : Expr} :
    (∃ error, a.join b on = .error error) ↔
      on.type.isBoolean = false ∨ (∃ key ∈ b.keys, key ∈ a.keys) ∨
        ∃ x ∈ on.leaves, a.owns x = false ∧ b.owns x = false := by
  have howns (x : Attribute) : Column.exposes (a.columns ++ b.columns) x = (a.owns x || b.owns x) :=
    Column.exposes_append
  have hfails : (∃ error, a.join b on = .error error) ↔ ¬ ∃ j, a.join b on = .ok j := by
    cases a.join b on <;> simp
  have hscope : on.inScope (a.columns ++ b.columns) = true ↔
      ¬ ∃ x ∈ on.leaves, a.owns x = false ∧ b.owns x = false := by
    rw [Expr.inScope_iff]
    simp only [howns, Bool.or_eq_true, not_exists, not_and, Bool.not_eq_false]
    exact forall₂_congr fun x _ => by cases a.owns x <;> simp
  have hjoin : (∃ j, a.join b on = .ok j) ↔ on.type.isBoolean = true ∧ (∀ key ∈ b.keys, key ∉ a.keys) ∧
      on.inScope (a.columns ++ b.columns) = true := by
    simp only [join_eq_ok]
    constructor
    · rintro ⟨j, hb, hkeys, rfl, hv⟩
      exact ⟨hb, hkeys, hv⟩
    · rintro ⟨hb, hkeys, hv⟩
      exact ⟨_, hb, hkeys, rfl, hv⟩
  rw [hfails, hjoin, hscope, not_and_or, not_and_or, not_not, Bool.not_eq_true]
  simp only [not_forall, not_not, exists_prop]

/-- each list of `j` is that of `a` followed by that of `b`, and `on` is the last restriction -/
structure Merges (a b : Relation) (on : Expr) (j : Relation) : Prop where
  sources : j.sources = a.sources ++ b.sources
  columns : j.columns = a.columns ++ b.columns
  restrictions : j.restrictions = a.restrictions ++ b.restrictions ++ [on]
  groups : j.groups = a.groups ++ b.groups
  orders : j.orders = a.orders ++ b.orders

/-- **A join merges what it combines, the groups and orders of the right side apart.**  It is refused if its
predicate is no truth value, if an output name is taken, or if a leaf of the predicate is a column of neither
side.  Otherwise it has the sources, columns and restrictions of both sides in order, and the groups and orders
of the left one; so nothing is lost exactly if the right one has none. -/
theorem join_merges (a b : Relation) (on : Expr) :
    ((∃ error, a.join b on = .error error) ↔
      on.type.isBoolean = false ∨ (∃ key ∈ b.keys, key ∈ a.keys) ∨
        ∃ x ∈ on.leaves, a.owns x = false ∧ b.owns x = false) ∧
      ∀ j, a.join b on = .ok j →
        j.sources = a.sources ++ b.sources ∧ j.columns = a.columns ++ b.columns ∧
        j.restrictions = a.restrictions ++ b.restrictions ++ [on] ∧
        j.groups = a.groups ∧ j.orders = a.orders ∧
        (a.Merges b on j ↔ b.groups = [] ∧ b.orders = []) := by
  refine ⟨join_eq_error_iff, fun j hj => ?_⟩
  obtain ⟨-, -, rfl, -⟩ := join_eq_ok.mp hj
  refine ⟨rfl, rfl, rfl, rfl, rfl, ?_⟩
  constructor
  · intro h
    exact ⟨List.self_eq_append_right.mp h.groups, List.self_eq_append_right.mp h.orders⟩
  · rintro ⟨hgroups, horders⟩
    refine ⟨rfl, rfl, rfl, ?_, ?_⟩
    · show a.groups = a.groups ++ b.groups
      rw [hgroups, List.append_nil]
    · show a.orders = a.orders ++ b.orders
      rw [horders, List.append_nil]

/-! ## a right side with groups -/

section

def groupedMembers : Relation := { memberTable with kind := .derived, groups := [memberNumber] }

theorem derived_groupedMembers : Derived Expr.Made [members] groupedMembers := by
  have hgroup : (Operation.group memberNumber).run memberTable = .ok groupedMembers := rfl
  exact .step_one (derived_memberTable _) rfl (Expr.made_of_literals rfl) rfl hgroup

/-- **A join loses the groups of its right side**: persons joined with grouped members are not grouped. -/
theorem not_join_merges : ¬ ∀ (ds es : List TableDeclaration) (a b : Relation) (on : Expr) (j : Relation),
    Derived Expr.Made ds a → Derived Expr.Made es b → a.join b on = .ok j → a.Merges b on j := by
  intro h
  have hjoin : personTable.join groupedMembers (sameNumber personNumber memberNumber) = .ok memberPersons := rfl
  have hmerges := h _ _ _ _ _ _ (derived_personTable _) derived_groupedMembers hjoin
  exact absurd hmerges.groups (List.cons_ne_nil memberNumber []).symm

end

end Relation

/-! ## derivations -/

/-- how a relation is derived: from a declared table by operators, and from two relations by a join -/
inductive Derivation where
  | table (declaration : TableDeclaration)
  | step (op : Operation) (base : Derivation)
  | join (left right : Derivation) (on : Expr)

namespace Derivation

def run : Derivation → Except AlgebraError Relation
  | table d => d.run
  | step op base => do op.run (← base.run)
  | join left right on => do (← left.run).join (← right.run) on

/-- what is given for a clause at any place, in order; a join gives a restriction -/
def given (c : ClauseKind) : Derivation → List Expr
  | table _ => []
  | step op base => base.given c ++ op.given c
  | join left right on => left.given c ++ right.given c ++ if c = .restriction then [on] else []

/-- what is given for a clause and does not reach it: groups and orders on the right side of a join -/
def lost (c : ClauseKind) : Derivation → List Expr
  | table _ => []
  | step _ base => base.lost c
  | join left right _ => left.lost c ++ if c = .restriction then right.lost c else right.given c

theorem lost_restriction (q : Derivation) : q.lost .restriction = [] := by
  induction q with
  | table d => rfl
  | step op base ih => exact ih
  | join left right on ihl ihr =>
    rw [lost, if_pos rfl, ihl, ihr]
    rfl

theorem clause_of_join {a b j : Relation} {on : Expr} (h : a.join b on = .ok j) (c : ClauseKind) :
    j.clause c = if c = .restriction then a.clause c ++ b.clause c ++ [on] else a.clause c := by
  obtain ⟨-, -, rfl, -⟩ := Relation.join_eq_ok.mp h
  cases c <;> rfl

/-- what is in a clause was given for it, and together with what was lost it is as long as all that was given -/
theorem sublist_given {q : Derivation} {r : Relation} (h : q.run = .ok r) (c : ClauseKind) :
    (r.clause c).Sublist (q.given c) ∧ (r.clause c).length + (q.lost c).length = (q.given c).length := by
  induction q generalizing r with
  | table d =>
    obtain ⟨-, -, -, rfl⟩ := Relation.table_eq_ok.mp h
    cases c <;> exact ⟨List.Sublist.refl [], rfl⟩
  | step op base ih =>
    obtain ⟨s, hs, hr⟩ := bind_eq_ok.mp h
    obtain ⟨hsub, hlength⟩ := ih hs
    rw [Operation.clause_of_run hr c, given, lost]
    refine ⟨hsub.append (List.Sublist.refl _), ?_⟩
    rw [List.length_append, List.length_append]
    omega
  | join left right on ihl ihr =>
    obtain ⟨a, ha, h⟩ := bind_eq_ok.mp h
    obtain ⟨b, hb, h⟩ := bind_eq_ok.mp h
    obtain ⟨hsubl, hlengthl⟩ := ihl ha
    obtain ⟨hsubr, hlengthr⟩ := ihr hb
    rw [clause_of_join h c, given, lost]
    by_cases hc : c = .restriction
    · simp only [if_pos hc]
      refine ⟨(hsubl.append hsubr).append (List.Sublist.refl _), ?_⟩
      simp only [List.length_append]
      omega
    · simp only [if_neg hc, List.append_nil]
      refine ⟨hsubl.trans (List.sublist_append_left _ _), ?_⟩
      simp only [List.length_append]
      omega

/-- **What reaches the query.**  All restrictions and join predicates of a derivation are in the relation it
makes, in order.  Of the groups and orders some are lost if they are given on the right side of a join, and
only then. -/
theorem clause_of_run {q : Derivation} {r : Relation} (h : q.run = .ok r) :
    r.restrictions = q.given .restriction ∧ ∀ c, r.clause c = q.given c ↔ q.lost c = [] := by
  have hiff (c : ClauseKind) : r.clause c = q.given c ↔ q.lost c = [] := by
    obtain ⟨hsub, hlength⟩ := sublist_given h c
    constructor
    · intro heq
      rw [heq] at hlength
      exact List.length_eq_zero_iff.mp (by omega)
    · intro hlost
      rw [hlost] at hlength
      exact hsub.eq_of_length hlength
  exact ⟨(hiff .restriction).mpr q.lost_restriction, hiff⟩

end Derivation

end TableAlgebra
