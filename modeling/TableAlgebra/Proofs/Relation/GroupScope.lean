import TableAlgebra.Proofs.Relation.Sources

/-!
# What a grouped relation gives out

A projection takes an expression if each attribute in it is a column in sight and, in a grouped relation, stands
below an aggregate or is determined by a grouping key.  The check walks down the expression with a flag that says
whether it has passed an aggregate, and a relation without groups starts with the flag set.  Here the rule is
stated by the leaves and the nodes above them, and from there it follows which other keys may take the place of
the grouping keys.

* `Expr.operand_induction`            induction from the operands of a node to the node;
* `Expr.Occurs`                       an attribute stands at a leaf, below a list of nodes;
* `Expr.mem_leaves_iff_occurs`, `Expr.mem_bareLeaves_iff_occurs`   the leaves, and those below no aggregate;
* `Attribute.dependsOn_trans`         what is determined by a key is determined by what determines the key;
* `Relation.validAggregate_of_keys`   keys may be replaced by keys that determine them;
* `Relation.grouping_rule`            the rule and what follows from it.
-/

namespace TableAlgebra

/-! ## leaves and the nodes above them -/

namespace Expr

variable {a : Attribute} {e : Expr}

/-- what holds of a node if it holds of its operands holds of every expression -/
theorem operand_induction {P : Expr → Prop} (h : ∀ e, (∀ child ∈ e.operands, P child) → P e) (e : Expr) : P e := by
  have hstructural : Structural P (fun _ => True) :=
    { literal := fun l => h _ fun _ hchild => absurd hchild List.not_mem_nil
      attr := fun b => h _ fun _ hchild => absurd hchild List.not_mem_nil
      binary := fun op t l r hl hr => h _ (List.forall_mem_cons.mpr ⟨hl, List.forall_mem_singleton.mpr hr⟩)
      aggregate := fun f t e he => h _ (List.forall_mem_singleton.mpr he)
      member := fun t e r he _ => h _ (List.forall_mem_singleton.mpr he)
      relation := fun _ _ => trivial }
  exact hstructural.of_expr e

/-- the attribute stands at a leaf of the expression; the list holds the nodes above that leaf, the topmost first -/
inductive Occurs (a : Attribute) : Expr → List Expr → Prop where
  | here : Occurs a (.attr a) []
  | inside {e child : Expr} {above : List Expr} (operand : child ∈ e.operands) (occurs : Occurs a child above) :
      Occurs a e (e :: above)

theorem mem_leaves_iff : a ∈ e.leaves ↔ e = .attr a ∨ ∃ child ∈ e.operands, a ∈ child.leaves := by
  cases e <;> simp [leaves, operands, eq_comm]

theorem mem_bareLeaves_iff :
    a ∈ e.bareLeaves ↔ e = .attr a ∨ e.isAggregate = false ∧ ∃ child ∈ e.operands, a ∈ child.bareLeaves := by
  cases e <;> simp [bareLeaves, operands, isAggregate, eq_comm]

theorem Occurs.mem_leaves {above : List Expr} (h : e.Occurs a above) : a ∈ e.leaves := by
  induction h with
  | here => exact List.mem_singleton_self a
  | inside operand _ ih => exact mem_leaves_iff.mpr (.inr ⟨_, operand, ih⟩)

theorem Occurs.mem_bareLeaves {above : List Expr} (h : e.Occurs a above)
    (hbare : ∀ f ∈ above, f.isAggregate = false) : a ∈ e.bareLeaves := by
  induction h with
  | here => exact List.mem_singleton_self a
  | inside operand _ ih =>
    obtain ⟨htop, hbelow⟩ := List.forall_mem_cons.mp hbare
    exact mem_bareLeaves_iff.mpr (.inr ⟨htop, _, operand, ih hbelow⟩)

theorem mem_leaves_iff_occurs : a ∈ e.leaves ↔ ∃ above, e.Occurs a above := by
  refine ⟨?_, fun ⟨_, h⟩ => h.mem_leaves⟩
  induction e using operand_induction with
  | h e ih =>
    intro ha
    rcases mem_leaves_iff.mp ha with rfl | ⟨child, operand, ha⟩
    · exact ⟨[], .here⟩
    · obtain ⟨above, occurs⟩ := ih child operand ha
      exact ⟨e :: above, .inside operand occurs⟩

theorem mem_bareLeaves_iff_occurs :
    a ∈ e.bareLeaves ↔ ∃ above, e.Occurs a above ∧ ∀ f ∈ above, f.isAggregate = false := by
  refine ⟨?_, fun ⟨_, h, hbare⟩ => h.mem_bareLeaves hbare⟩
  induction e using operand_induction with
  | h e ih =>
    intro ha
    rcases mem_bareLeaves_iff.mp ha with rfl | ⟨htop, child, operand, ha⟩
    · exact ⟨[], .here, fun _ hf => absurd hf List.not_mem_nil⟩
    · obtain ⟨above, occurs, hbare⟩ := ih child operand ha
      exact ⟨e :: above, .inside operand occurs, List.forall_mem_cons.mpr ⟨htop, hbare⟩⟩

end Expr

/-! ## keys that determine one another -/

namespace Attribute

variable {a k l : Attribute}

theorem dependsOn_iff :
    a.dependsOn k = true ↔ a = k ∨ ∃ owner, a.owner? = some owner ∧ k.owner? = some owner ∧ k.isUnique = true := by
  unfold dependsOn
  cases a.owner? with
  | none => simp
  | some owner =>
    have howner : (some owner == k.owner?) = true ↔ k.owner? = some owner := by rw [beq_iff_eq, eq_comm]
    simp [howner]

/-- an attribute determined by a key is determined by what determines the key: a unique column of its table -/
theorem dependsOn_trans (hak : a.dependsOn k = true) (hkl : k.dependsOn l = true) : a.dependsOn l = true := by
  rcases dependsOn_iff.mp hak with rfl | ⟨owner, ha, hk, -⟩
  · exact hkl
  rcases dependsOn_iff.mp hkl with rfl | ⟨owner', hk', hl, hunique⟩
  · exact hak
  have howner : owner' = owner := Option.some.inj (hk'.symm.trans hk)
  exact dependsOn_iff.mpr (.inr ⟨owner, ha, howner ▸ hl, hunique⟩)

end Attribute

namespace Relation

variable {r s : Relation} {e : Expr}

theorem validAggregate_iff_occurs :
    r.validAggregate e = true ↔ ∀ a above, e.Occurs a above →
      (∃ c ∈ r.columns, c.expr = .attr a) ∧
        (r.groups = [] ∨ (∃ f ∈ above, f.isAggregate = true) ∨
          ∃ k, Expr.attr k ∈ r.groups ∧ a.dependsOn k = true) := by
  rw [validAggregate_iff, valid_iff]
  constructor
  · rintro ⟨hvalid, hgrouped⟩ a above occurs
    refine ⟨hvalid a occurs.mem_leaves, ?_⟩
    by_cases hgroups : r.groups = []
    · exact .inl hgroups
    -- the flag is set on the way to this leaf if and only if an aggregate was passed
    by_cases hbare : ∀ f ∈ above, f.isAggregate = false
    · exact .inr (.inr (Expr.determine_iff.mp (hgrouped hgroups a (occurs.mem_bareLeaves hbare))))
    · push Not at hbare
      exact .inr (.inl (hbare.imp fun f hf => ⟨hf.1, by simpa using hf.2⟩))
  · intro h
    refine ⟨fun a ha => ?_, fun hgroups a ha => ?_⟩
    · obtain ⟨above, occurs⟩ := Expr.mem_leaves_iff_occurs.mp ha
      exact (h a above occurs).1
    · obtain ⟨above, occurs, hbare⟩ := Expr.mem_bareLeaves_iff_occurs.mp ha
      rcases (h a above occurs).2 with hempty | ⟨f, hf, haggregate⟩ | hkey
      · exact absurd hempty hgroups
      · exact absurd haggregate (by simp [hbare f hf])
      · exact Expr.determine_iff.mpr hkey

theorem validAggregate_eq_valid (h : r.groups = []) (e : Expr) : r.validAggregate e = r.valid e := by
  rw [Bool.eq_iff_iff, validAggregate_iff]
  exact and_iff_left (absurd h)

/-- The keys of a grouped relation may be replaced by keys that determine them.  Other expressions among the keys
determine nothing, so nothing is asked of them. -/
theorem validAggregate_of_keys (hcolumns : s.columns = r.columns) (hgroups : r.groups ≠ [])
    (hkeys : ∀ k, Expr.attr k ∈ r.groups → ∃ l, Expr.attr l ∈ s.groups ∧ k.dependsOn l = true)
    (h : r.validAggregate e = true) : s.validAggregate e = true := by
  rw [validAggregate_iff_occurs] at h ⊢
  intro a above occurs
  obtain ⟨hcolumn, hrule⟩ := h a above occurs
  refine ⟨hcolumns ▸ hcolumn, .inr ?_⟩
  rcases hrule with hempty | haggregate | ⟨k, hk, hak⟩
  · exact absurd hempty hgroups
  · exact .inl haggregate
  · obtain ⟨l, hl, hkl⟩ := hkeys k hk
    exact .inr ⟨l, hl, Attribute.dependsOn_trans hak hkl⟩

/-- **The rule of grouping.**  A relation gives out an expression if each leaf of it is a column of the relation
and, where the relation has groups, stands below an aggregate or is determined by a key that is an attribute.  So
what it gives out is in scope, without groups that is all that is asked, and what it gives out for some keys it
gives out for every other choice of keys that determine these. -/
theorem grouping_rule (r : Relation) (e : Expr) :
    (r.validAggregate e = true ↔ ∀ a above, e.Occurs a above →
      (∃ c ∈ r.columns, c.expr = .attr a) ∧
        (r.groups = [] ∨ (∃ f ∈ above, f.isAggregate = true) ∨
          ∃ k, Expr.attr k ∈ r.groups ∧ a.dependsOn k = true)) ∧
      (r.validAggregate e = true → r.valid e = true) ∧
      (r.groups = [] → r.validAggregate e = r.valid e) ∧
      ∀ s : Relation, s.columns = r.columns → r.groups ≠ [] →
        (∀ k, Expr.attr k ∈ r.groups → ∃ l, Expr.attr l ∈ s.groups ∧ k.dependsOn l = true) →
        r.validAggregate e = true → s.validAggregate e = true :=
  ⟨validAggregate_iff_occurs, fun h => (validAggregate_iff.mp h).1, fun h => validAggregate_eq_valid h e,
    fun _ hcolumns hgroups hkeys h => validAggregate_of_keys hcolumns hgroups hkeys h⟩

def personsBy (key : Expr) : Relation := { personTable with kind := .derived, groups := [key] }

/-- the conditions of `grouping_rule` on other keys can be met: the year of birth is given out by persons grouped by
it, and so it is by persons grouped by their number, which determines it -/
theorem grouping_rule_personsBy :
    (personsBy personNumber).columns = (personsBy personBorn).columns ∧ (personsBy personBorn).groups ≠ [] ∧
      (∀ k, Expr.attr k ∈ (personsBy personBorn).groups →
        ∃ l, Expr.attr l ∈ (personsBy personNumber).groups ∧ k.dependsOn l = true) ∧
      (personsBy personBorn).validAggregate personBorn = true ∧
      (personsBy personNumber).validAggregate personBorn = true := by
  have hkeys : ∀ k, Expr.attr k ∈ (personsBy personBorn).groups →
      ∃ l, Expr.attr l ∈ (personsBy personNumber).groups ∧ k.dependsOn l = true := by
    intro k hk
    obtain rfl := Expr.attr.inj (List.mem_singleton.mp hk)
    exact ⟨_, List.mem_singleton_self _, rfl⟩
  have hborn : (personsBy personBorn).validAggregate personBorn = true := by decide
  obtain ⟨-, -, -, hother⟩ := grouping_rule (personsBy personBorn) personBorn
  exact ⟨rfl, List.cons_ne_nil _ _, hkeys, hborn, hother _ rfl (List.cons_ne_nil _ _) hkeys hborn⟩

/-- the number is not given out by persons grouped by the year, which does not determine it -/
example : (personsBy personBorn).validAggregate personNumber = false := by decide

end Relation

end TableAlgebra
