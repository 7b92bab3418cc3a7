import TableAlgebra.Proofs.Relation.Grouping
import TableAlgebra.Proofs.Relation.OutputColumns

/-!
# Giving out a grouping key

Every expression in scope may become a grouping key, but only keys that are attributes determine anything.  So a
key that is an attribute can be given out by the relation it groups, and a computed key is looked at like any other
expression: each attribute in it that stands below no aggregate has to be determined by an attribute among the keys,
and the computed key itself is no help.

* `Expr.grouped_append_singleton`        what a new key determines;
* `Relation.project_one`                 what a projection to one column asks for;
* `Relation.project_one_eq_error`        and the error if it is not aggregated;
* `Relation.project_grouping_key`        when a new key can be given out;
* `Relation.not_project_grouping_key`    a computed key that cannot.
-/

namespace TableAlgebra

/-! ## a key among the groups -/

namespace Expr

variable {groups : List Expr} {k : Expr}

theorem grouped_attr {a : Attribute} (h : attr a ∈ groups) : (attr a).Grouped groups := by
  intro b hb
  obtain rfl : b = a := List.mem_singleton.mp hb
  exact ⟨b, h, Attribute.dependsOn_iff.mpr (.inl rfl)⟩

/-- the last key determines itself if it is an attribute, and nothing at all otherwise -/
theorem grouped_append_singleton :
    k.Grouped (groups ++ [k]) ↔ (∃ a, k = attr a) ∨ k.Grouped groups := by
  constructor
  · intro h
    by_cases hattr : ∃ a, k = attr a
    · exact .inl hattr
    · refine .inr fun a ha => ?_
      obtain ⟨l, hl, hal⟩ := h a ha
      rcases List.mem_append.mp hl with hl | hl
      · exact ⟨l, hl, hal⟩
      · exact absurd ⟨l, (List.mem_singleton.mp hl).symm⟩ hattr
  · rintro (⟨a, rfl⟩ | h)
    · exact grouped_attr (List.mem_append_right _ (List.mem_singleton_self _))
    · exact h.mono (List.subset_append_left _ _)

end Expr

namespace Relation

variable {r g p : Relation} {e k : Expr} {name : String}

/-! ## a projection to one column -/

theorem project_one (hname : isIdentifier name = true) :
    r.project [(name, .expr e)] = .ok p ↔
      r.validAggregate e = true ∧ { r with kind := .derived, columns := [⟨name, e⟩] } = p := by
  rw [project_eq_ok]
  constructor
  · rintro ⟨columns, hcolumns, -, -, rfl⟩
    obtain ⟨⟨key, e'⟩, rest, ⟨hkey, -, hexpr, -, haggregate⟩, hrest, rfl⟩ := List.forall₂_cons_left_iff.mp hcolumns
    obtain rfl := List.forall₂_nil_left_iff.mp hrest
    obtain rfl : key = name := hkey
    obtain rfl : e = e' := Except.ok.inj hexpr
    exact ⟨haggregate, rfl⟩
  · rintro ⟨haggregate, rfl⟩
    have hvalid : r.valid e = true := (validAggregate_iff.mp haggregate).1
    refine ⟨[⟨name, e⟩], .cons ⟨rfl, hname, rfl, hvalid, haggregate⟩ .nil, ?_, List.cons_ne_nil _ _, rfl⟩
    exact List.nodup_singleton name

theorem project_one_eq_error (hname : isIdentifier name = true) (h : r.valid e = true)
    (haggregate : r.validAggregate e = false) :
    r.project [(name, .expr e)] = .error (.notAggregated name) := by
  have hid : requireIdentifier name = .ok () := requireIdentifier_eq_ok.mpr hname
  have hscope : r.requireScope .projectArgument e = .ok () := requireScope_eq_ok.mpr h
  have hcolumns : r.projectColumns [] [(name, .expr e)] = .error (.notAggregated name) := by
    simp only [projectColumns, hid, Operand.toExpr, hscope, haggregate, bind, Except.bind]
    rfl
  rw [project, hcolumns]
  rfl

/-! ## a projection to a new key -/

/-- a new key is in scope, and may be given out if it is an attribute or determined by the keys before it -/
theorem validAggregate_of_group (made : r.group k = .ok g) :
    g.valid k = true ∧ (g.validAggregate k = true ↔ (∃ a, k = .attr a) ∨ k.Grouped r.groups) := by
  obtain ⟨hvalid, rfl⟩ := group_eq_ok.mp made
  refine ⟨hvalid, ?_⟩
  have hgroups : r.groups ++ [k] ≠ [] := List.append_ne_nil_of_right_ne_nil _ (List.cons_ne_nil k [])
  rw [validAggregate_iff_grouped hgroups, ← Expr.grouped_append_singleton]
  exact and_iff_right hvalid

/-- **A grouping key can be given out if it is an attribute, or determined by the keys before it.**  A relation is
grouped by one key more, and then projected to that key alone.  The projection succeeds exactly if the key is an
attribute, or if every attribute in it that stands below no aggregate is determined by a key that was there before
and is an attribute; so it does where there is no such attribute.  The result differs from the grouped relation in
its columns alone, which are the key under the given name; otherwise the key is refused as not aggregated. -/
theorem project_grouping_key (made : r.group k = .ok g) (hname : isIdentifier name = true) :
    ((∃ p, g.project [(name, .expr k)] = .ok p) ↔ (∃ a, k = .attr a) ∨ k.Grouped r.groups) ∧
      (k.bareLeaves = [] → ∃ p, g.project [(name, .expr k)] = .ok p) ∧
      (∀ p, g.project [(name, .expr k)] = .ok p → { g with kind := .derived, columns := [⟨name, k⟩] } = p) ∧
      (¬ ((∃ a, k = .attr a) ∨ k.Grouped r.groups) →
        g.project [(name, .expr k)] = .error (.notAggregated name)) := by
  obtain ⟨hvalid, haggregate⟩ := validAggregate_of_group made
  have hok : (∃ p, g.project [(name, .expr k)] = .ok p) ↔ (∃ a, k = .attr a) ∨ k.Grouped r.groups := by
    simp only [project_one hname, exists_and_left, exists_eq', and_true, haggregate]
  refine ⟨hok, fun hbare => hok.mpr (.inr fun a ha => ?_), fun p hp => ((project_one hname).mp hp).2, fun hnot => ?_⟩
  · rw [hbare] at ha
    exact absurd ha List.not_mem_nil
  · exact project_one_eq_error hname hvalid (Bool.eq_false_iff.mpr fun h => hnot (haggregate.mp h))

section

def personsByYear : Relation := { personTable with kind := .derived, groups := [personBorn] }

/-- the hypotheses of `project_grouping_key` can be met: by a computed key that a key before it determines -/
theorem project_grouping_key_nextYear :
    personTable.group personBorn = .ok personsByYear ∧ isIdentifier "next" = true ∧
      ∃ g, personsByYear.group nextYear = .ok g ∧ ∃ p, g.project [("next", .expr nextYear)] = .ok p := by
  have hname : isIdentifier "next" = true := by decide
  have hgroup : personsByYear.group nextYear =
      .ok { personsByYear with groups := personsByYear.groups ++ [nextYear] } := rfl
  have hgrouped : nextYear.Grouped personsByYear.groups := by
    intro a ha
    exact Expr.grouped_attr (List.mem_singleton_self _) a ha
  exact ⟨rfl, hname, _, hgroup, (project_grouping_key hgroup hname).1.mpr (.inr hgrouped)⟩

/-- A grouping key need not be one that can be given out: persons grouped by the year after the one in which they were
born do not give out that year. -/
theorem not_project_grouping_key : ¬ ∀ (ds : List TableDeclaration) (r : Relation), Derived Expr.Made ds r →
    ∀ k g, r.group k = .ok g → ∀ name, isIdentifier name = true →
      ∃ p, g.project [(name, .expr k)] = .ok p := by
  intro h
  have hgroup : personTable.group nextYear = .ok { personTable with kind := .derived, groups := [nextYear] } := rfl
  obtain ⟨p, hp⟩ := h _ _ (derived_personTable _) nextYear _ hgroup "next" (by decide)
  have haggregate := ((project_one (by decide)).mp hp).1
  exact absurd haggregate (by decide)

end

end Relation

end TableAlgebra
