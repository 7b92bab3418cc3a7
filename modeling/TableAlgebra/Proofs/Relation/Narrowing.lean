import TableAlgebra.Proofs.Relation.Clauses

/-!
# What a projection leaves in sight

A projection gives out bare columns of the relation under it and computed ones, and only the bare ones are in
sight afterwards.  So it narrows the scope, whatever it renames, and keeps the groups; what is accepted behind it
is accepted in front of it.  A second projection makes the first one void, and a restriction or an order may be
written on either side of it.  A group may not: in front of the projection it is one more key that the projected
columns are checked against.

* `Relation.valid_of_project`          what is in scope of a projection is in scope of the relation under it;
* `Relation.Admits.of_project`         and what a projection of it takes, a projection of that relation takes;
* `Relation.project_of_columns_eq`     a projection looks at the columns and the groups alone;
* `Relation.run_before_project`        one call behind a projection, moved in front of it;
* `Relation.runAll_before_project`     a sequence of such calls;
* `Relation.project_narrows`           projections narrow, and may be fused.
-/

namespace TableAlgebra.Relation

variable {r s p q : Relation} {named : List (String × Operand)}

/-! ## scope -/

theorem groups_of_project (h : r.project named = .ok p) : p.groups = r.groups := by
  obtain ⟨columns, -, -, -, rfl⟩ := project_eq_ok.mp h
  rfl

theorem exposes_of_project (h : r.project named = .ok p) {a : Attribute} (ha : ∃ c ∈ p.columns, c.expr = .attr a) :
    ∃ c ∈ r.columns, c.expr = .attr a := by
  obtain ⟨columns, hcolumns, -, -, rfl⟩ := project_eq_ok.mp h
  obtain ⟨c, hc, hca⟩ := ha
  obtain ⟨n, -, -, -, -, hvalid, -⟩ := exists_mem_of_forall₂ hcolumns hc
  rw [hca] at hvalid
  exact valid_iff.mp hvalid a (List.mem_singleton_self a)

theorem valid_of_project (h : r.project named = .ok p) {e : Expr} (he : p.valid e = true) : r.valid e = true :=
  valid_iff.mpr fun a ha => exposes_of_project h (valid_iff.mp he a ha)

theorem validAggregate_of_project (h : r.project named = .ok p) {e : Expr} (he : p.validAggregate e = true) :
    r.validAggregate e = true := by
  rw [validAggregate_iff, groups_of_project h] at he
  exact validAggregate_iff.mpr ⟨valid_of_project h he.1, he.2⟩

/-! ## a projection of a projection -/

theorem Admits.of_project (h : r.project named = .ok p) {value : String × Operand} {c : Column}
    (hc : p.Admits value c) : r.Admits value c :=
  have ⟨hkey, hname, hexpr, hvalid, haggregate⟩ := hc
  ⟨hkey, hname, hexpr, valid_of_project h hvalid, validAggregate_of_project h haggregate⟩

/-- the columns of the first projection are not needed for the second -/
theorem project_of_project (h : r.project named = .ok p) {more : List (String × Operand)}
    (hq : p.project more = .ok q) : r.project more = .ok q := by
  obtain ⟨columns, hcolumns, hnodup, hne, rfl⟩ := project_eq_ok.mp hq
  refine project_eq_ok.mpr ⟨columns, hcolumns.imp fun _ _ => Admits.of_project h, hnodup, hne, ?_⟩
  obtain ⟨-, -, -, -, rfl⟩ := project_eq_ok.mp h
  rfl

/-! ## a clause behind a projection -/

theorem project_of_columns_eq (hcolumns : s.columns = r.columns) (hgroups : s.groups = r.groups)
    (h : r.project named = .ok p) :
    s.project named = .ok { s with kind := .derived, columns := p.columns } := by
  obtain ⟨columns, hadmitted, hnodup, hne, rfl⟩ := project_eq_ok.mp h
  have hadmits : s.Admits = r.Admits := by
    funext value c
    simp only [Admits, valid, validAggregate, hcolumns, hgroups]
  exact project_eq_ok.mpr ⟨columns, hadmits ▸ hadmitted, hnodup, hne, rfl⟩

/-- a restriction or an order behind a projection may be written in front of it: the call is in scope there, and
it changes neither the columns nor the groups that the projection is checked against -/
theorem run_before_project (h : r.project named = .ok p) {call : ClauseCall} (hclause : call.clause ≠ .group)
    (hq : call.operation.run p = .ok q) :
    ∃ s, call.operation.run r = .ok s ∧ s.project named = .ok q := by
  obtain ⟨hfits, rfl⟩ := run_eq_ok.mp hq
  have hbefore : call.Fits r.columns := fun e he => ⟨valid_of_project h (hfits e he).1, (hfits e he).2⟩
  -- the projection is checked again behind the call, against the same columns and the same keys
  have hgroups : (r.extend call).groups = r.groups := by
    show r.groups ++ call.operation.given .group = r.groups
    rw [ClauseCall.given_operation, if_neg hclause, List.append_nil]
  refine ⟨r.extend call, run_eq_ok.mpr ⟨hbefore, rfl⟩, ?_⟩
  have hcolumns : (r.extend call).columns = r.columns := rfl
  rw [project_of_columns_eq hcolumns hgroups h]
  obtain ⟨columns, -, -, -, rfl⟩ := project_eq_ok.mp h
  simp only [extend, ite_self]

theorem runAll_before_project {calls : List ClauseCall} (hclause : ∀ call ∈ calls, call.clause ≠ .group)
    (h : r.project named = .ok p) (hq : p.runAll calls = .ok q) :
    ∃ s, r.runAll calls = .ok s ∧ s.project named = .ok q := by
  induction calls generalizing r p with
  | nil => exact ⟨r, rfl, h.trans hq⟩
  | cons call calls ih =>
    obtain ⟨hcall, hrest⟩ := List.forall_mem_cons.mp hclause
    obtain ⟨t, ht, hq⟩ := bind_eq_ok.mp (List.foldlM_cons.symm.trans hq)
    obtain ⟨u, hu, hproject⟩ := run_before_project h hcall ht
    obtain ⟨s, hs, hsq⟩ := ih hrest hproject hq
    exact ⟨s, List.foldlM_cons.trans (bind_eq_ok.mpr ⟨u, hu, hs⟩), hsq⟩

/-- **Projections narrow, and may be fused.**  What is in scope of a projection is in scope of the relation under
it.  What a second projection makes, it makes of that relation as well, and a restriction or an order behind the
projection may be written in front of it: each time both ways make one and the same relation, so the same query. -/
theorem project_narrows (h : r.project named = .ok p) :
    (∀ e, p.valid e = true → r.valid e = true) ∧
      (∀ more q, p.project more = .ok q → r.project more = .ok q) ∧
      (∀ predicate q, p.restrict predicate = .ok q →
        ∃ s, r.restrict predicate = .ok s ∧ s.project named = .ok q) ∧
      ∀ key q, p.order key = .ok q → ∃ s, r.order key = .ok s ∧ s.project named = .ok q := by
  refine ⟨fun e he => valid_of_project h he, fun more q hq => project_of_project h hq, fun predicate q hq => ?_,
    fun key q hq => ?_⟩
  · have hclause : (ClauseCall.restrict predicate).clause ≠ .group := nofun
    exact run_before_project h hclause hq
  · have hclause : (ClauseCall.order key).clause ≠ .group := nofun
    exact run_before_project h hclause hq

/-- the hypothesis of `project_narrows` can be met: by the years of birth, restricted by the column they were
before -/
theorem project_narrows_birthYears :
    personTable.project [("year", .expr personBorn)] = .ok birthYears ∧
      ∃ q s, birthYears.restrict (some (sameNumber personBorn personBorn)) = .ok q ∧
        personTable.restrict (some (sameNumber personBorn personBorn)) = .ok s ∧
        s.project [("year", .expr personBorn)] = .ok q ∧
        ∀ d, selectText d true q = "select born as year from persons where (born = born)" := by
  have hproject : personTable.project [("year", .expr personBorn)] = .ok birthYears := rfl
  obtain ⟨q, hq⟩ : ∃ q, birthYears.restrict (some (sameNumber personBorn personBorn)) = .ok q := ⟨_, rfl⟩
  obtain ⟨-, -, hrestrict, -⟩ := project_narrows hproject
  obtain ⟨s, hs, hsq⟩ := hrestrict _ q hq
  refine ⟨hproject, q, s, hq, hs, hsq, fun d => ?_⟩
  cases hq
  rfl

/-- a group may not be written in front of a projection: persons may be grouped by their year of birth after
number and year were projected, but grouped by the year they do not give out their number -/
example :
    (∃ q, (personTable.project [("id", .expr personNumber), ("year", .expr personBorn)] >>= (·.group personBorn))
      = .ok q) ∧
      ∃ error, (personTable.group personBorn >>=
        (·.project [("id", .expr personNumber), ("year", .expr personBorn)])) = .error error :=
  ⟨⟨_, rfl⟩, ⟨_, rfl⟩⟩

end TableAlgebra.Relation
