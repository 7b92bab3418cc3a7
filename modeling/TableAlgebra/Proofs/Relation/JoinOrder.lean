import Mathlib.Data.List.Perm.Basic
import TableAlgebra.Proofs.Relation.Sources

/-!
# The order of joins

Three relations may be joined from the left or from the right, and a restriction of one side may wait until after
the join.  The checks are made at other moments then, against other columns, but a join only adds columns to those
in sight: a predicate that is in scope early is in scope late, and the names that must not collide are the same
ones in the end.  The result is the same up to the order of its restrictions.

* `Relation.Joinable`, `Relation.joined`        when a join succeeds, and what it makes;
* `Relation.SameContents`, `Relation.Agree`     what two ways of making a relation have in common;
* `Relation.join_join_eq_ok`, `Relation.join_of_join_eq_ok`   two joins in a row, from the left and from the right;
* `Relation.joins_regroup`                      joins are associative, and restrictions pass through them.
-/

namespace TableAlgebra.Relation

variable {a b c r s j : Relation} {p q f : Expr}

/-! ## joins by what they own -/

/-- a truth value over columns of both sides, which give out no name in common -/
structure Joinable (a b : Relation) (on : Expr) : Prop where
  boolean : on.type.isBoolean = true
  distinct : a.keys.Disjoint b.keys
  owned : ∀ x ∈ on.leaves, a.owns x = true ∨ b.owns x = true

def joined (a b : Relation) (on : Expr) : Relation where
  kind := .derived
  sources := a.sources ++ b.sources
  columns := a.columns ++ b.columns
  restrictions := a.restrictions ++ b.restrictions ++ [on]
  groups := a.groups
  orders := a.orders

theorem keys_joined (a b : Relation) (on : Expr) : (a.joined b on).keys = a.keys ++ b.keys := List.map_append

theorem owns_joined {x : Attribute} : (a.joined b p).owns x = true ↔ a.owns x = true ∨ b.owns x = true := by
  show Column.exposes (a.columns ++ b.columns) x = true ↔ _
  rw [Column.exposes_append, Bool.or_eq_true]
  rfl

theorem join_eq_ok_iff_joined : a.join b p = .ok j ↔ a.Joinable b p ∧ a.joined b p = j := by
  have hdisjoint : a.keys.Disjoint b.keys ↔ ∀ key ∈ b.keys, key ∉ a.keys :=
    List.disjoint_comm.trans List.disjoint_left
  rw [join_eq_ok, ← hdisjoint]
  constructor
  · rintro ⟨hboolean, hdistinct, rfl, hvalid⟩
    exact ⟨⟨hboolean, hdistinct, fun x hx => owns_joined.mp (valid_iff_owns.mp hvalid x hx)⟩, rfl⟩
  · rintro ⟨⟨hboolean, hdistinct, howned⟩, rfl⟩
    exact ⟨hboolean, hdistinct, rfl, valid_iff_owns.mpr fun x hx => owns_joined.mpr (howned x hx)⟩

/-! ## two ways to one relation -/

structure SameContents (r s : Relation) : Prop where
  kind : r.kind = s.kind
  sources : r.sources = s.sources
  columns : r.columns = s.columns
  groups : r.groups = s.groups
  orders : r.orders = s.orders
  restrictions : r.restrictions.Perm s.restrictions

/-- both ways fail, or both succeed and what they make is equal up to the order of restrictions -/
def Agree (x y : Except AlgebraError Relation) : Prop :=
  ((∃ r, x = .ok r) ↔ ∃ s, y = .ok s) ∧ ∀ r s, x = .ok r → y = .ok s → r.SameContents s

theorem Agree.of_eq_ok {x y : Except AlgebraError Relation} {condition : Prop}
    (hx : ∀ t, x = .ok t ↔ condition ∧ r = t) (hy : ∀ t, y = .ok t ↔ condition ∧ s = t) (h : r.SameContents s) :
    Agree x y := by
  refine ⟨?_, fun t u ht hu => ?_⟩
  · simp only [hx, hy, exists_and_left, exists_eq', and_true]
  · obtain ⟨-, rfl⟩ := (hx t).mp ht
    obtain ⟨-, rfl⟩ := (hy u).mp hu
    exact h

theorem Agree.exists_sameContents {x y : Except AlgebraError Relation} (h : Agree x y) (hx : ∃ r, x = .ok r) :
    ∃ r s, x = .ok r ∧ y = .ok s ∧ r.SameContents s := by
  obtain ⟨r, hr⟩ := hx
  obtain ⟨s, hs⟩ := h.1.mp ⟨r, hr⟩
  exact ⟨r, s, hr, hs, h.2 r s hr hs⟩

/-- the restrictions in front of it and behind it stay in order when one is made last -/
theorem perm_made_last (front rest : List Expr) (e : Expr) :
    (front ++ [e] ++ rest).Perm (front ++ rest ++ [e]) := by
  rw [List.append_assoc, List.append_assoc]
  exact List.Perm.append_left front List.perm_append_comm

/-! ## two joins in a row -/

/-- three relations may be joined on the predicates: both are truth values, and no two of the relations give out
a name in common -/
structure JoinableThree (a b c : Relation) (p q : Expr) : Prop where
  first : p.type.isBoolean = true
  second : q.type.isBoolean = true
  left : a.keys.Disjoint b.keys
  outer : a.keys.Disjoint c.keys
  right : b.keys.Disjoint c.keys

section

variable (hp : ∀ x ∈ p.leaves, a.owns x = true ∨ b.owns x = true)
  (hq : ∀ x ∈ q.leaves, b.owns x = true ∨ c.owns x = true)

include hp hq

/-- from the left, the second predicate is checked against the columns of all three relations -/
theorem join_join_eq_ok (t : Relation) :
    a.join b p >>= (·.join c q) = .ok t ↔ JoinableThree a b c p q ∧ (a.joined b p).joined c q = t := by
  have howned (x : Attribute) (hx : x ∈ q.leaves) : (a.joined b p).owns x = true ∨ c.owns x = true :=
    (hq x hx).imp_left fun hb => owns_joined.mpr (.inr hb)
  simp only [bind_eq_ok, join_eq_ok_iff_joined]
  constructor
  · rintro ⟨_, ⟨hleft, rfl⟩, hall, rfl⟩
    have hkeys := hall.distinct
    rw [keys_joined, List.disjoint_append_left] at hkeys
    exact ⟨⟨hleft.boolean, hall.boolean, hleft.distinct, hkeys.1, hkeys.2⟩, rfl⟩
  · rintro ⟨h, rfl⟩
    have hkeys : (a.joined b p).keys.Disjoint c.keys := by
      rw [keys_joined]
      exact List.disjoint_append_left.mpr ⟨h.outer, h.right⟩
    exact ⟨_, ⟨⟨h.first, h.left, hp⟩, rfl⟩, ⟨h.second, hkeys, howned⟩, rfl⟩

/-- from the right, it is the first predicate that is checked against all of them -/
theorem join_of_join_eq_ok (t : Relation) :
    b.join c q >>= (a.join · p) = .ok t ↔ JoinableThree a b c p q ∧ a.joined (b.joined c q) p = t := by
  have howned (x : Attribute) (hx : x ∈ p.leaves) : a.owns x = true ∨ (b.joined c q).owns x = true :=
    (hp x hx).imp_right fun hb => owns_joined.mpr (.inl hb)
  simp only [bind_eq_ok, join_eq_ok_iff_joined]
  constructor
  · rintro ⟨_, ⟨hright, rfl⟩, hall, rfl⟩
    have hkeys := hall.distinct
    rw [keys_joined, List.disjoint_append_right] at hkeys
    exact ⟨⟨hall.boolean, hright.boolean, hkeys.1, hkeys.2, hright.distinct⟩, rfl⟩
  · rintro ⟨h, rfl⟩
    have hkeys : a.keys.Disjoint (b.joined c q).keys := by
      rw [keys_joined]
      exact List.disjoint_append_right.mpr ⟨h.left, h.outer⟩
    exact ⟨_, ⟨⟨h.second, h.right, hq⟩, rfl⟩, ⟨h.first, hkeys, howned⟩, rfl⟩

theorem agree_join_join : Agree (a.join b p >>= (·.join c q)) (b.join c q >>= (a.join · p)) := by
  -- from the right, the first predicate comes after everything that belongs to the last relation
  have hperm : (a.restrictions ++ b.restrictions ++ [p] ++ c.restrictions ++ [q]).Perm
      (a.restrictions ++ (b.restrictions ++ c.restrictions ++ [q]) ++ [p]) := by
    have hlast := perm_made_last (a.restrictions ++ b.restrictions) (c.restrictions ++ [q]) p
    simpa only [List.append_assoc] using hlast
  exact .of_eq_ok (join_join_eq_ok hp hq) (join_of_join_eq_ok hp hq)
    { kind := rfl
      sources := List.append_assoc _ _ _
      columns := List.append_assoc _ _ _
      groups := rfl
      orders := rfl
      restrictions := hperm }

end

/-! ## restrictions and joins -/

def restricted (r : Relation) (f : Expr) : Relation :=
  { r with kind := .derived, restrictions := r.restrictions ++ [f] }

theorem joinable_restricted_left : (a.restricted f).Joinable b p ↔ a.Joinable b p :=
  ⟨fun h => ⟨h.boolean, h.distinct, h.owned⟩, fun h => ⟨h.boolean, h.distinct, h.owned⟩⟩

theorem joinable_restricted_right : a.Joinable (b.restricted f) p ↔ a.Joinable b p :=
  ⟨fun h => ⟨h.boolean, h.distinct, h.owned⟩, fun h => ⟨h.boolean, h.distinct, h.owned⟩⟩

section

variable (hboolean : f.type.isBoolean = true)

include hboolean

theorem restrict_eq_ok (hscope : r.valid f = true) (t : Relation) :
    r.restrict (some f) = .ok t ↔ r.restricted f = t := by
  refine filter_eq_ok.trans ?_
  simp only [hscope, hboolean, true_and]
  rfl

theorem join_restrict_eq_ok (hscope : a.valid f = true ∨ b.valid f = true) (t : Relation) :
    a.join b p >>= (·.restrict (some f)) = .ok t ↔ a.Joinable b p ∧ (a.joined b p).restricted f = t := by
  have hvalid : (a.joined b p).valid f = true := by
    refine valid_iff_owns.mpr fun x hx => owns_joined.mpr ?_
    exact hscope.imp (fun ha => valid_iff_owns.mp ha x hx) fun hb => valid_iff_owns.mp hb x hx
  simp only [bind_eq_ok, join_eq_ok_iff_joined]
  constructor
  · rintro ⟨_, ⟨hjoin, rfl⟩, ht⟩
    exact ⟨hjoin, (restrict_eq_ok hboolean hvalid t).mp ht⟩
  · rintro ⟨hjoin, ht⟩
    exact ⟨_, ⟨hjoin, rfl⟩, (restrict_eq_ok hboolean hvalid t).mpr ht⟩

theorem restrict_join_eq_ok (hscope : a.valid f = true) (t : Relation) :
    a.restrict (some f) >>= (·.join b p) = .ok t ↔ a.Joinable b p ∧ (a.restricted f).joined b p = t := by
  simp only [bind_eq_ok, restrict_eq_ok hboolean hscope, exists_eq_left', join_eq_ok_iff_joined,
    joinable_restricted_left]

theorem join_of_restrict_eq_ok (hscope : b.valid f = true) (t : Relation) :
    b.restrict (some f) >>= (a.join · p) = .ok t ↔ a.Joinable b p ∧ a.joined (b.restricted f) p = t := by
  simp only [bind_eq_ok, restrict_eq_ok hboolean hscope, exists_eq_left', join_eq_ok_iff_joined,
    joinable_restricted_right]

theorem agree_restrict_join (hscope : a.valid f = true) :
    Agree (a.restrict (some f) >>= (·.join b p)) (a.join b p >>= (·.restrict (some f))) := by
  have hperm : (a.restrictions ++ [f] ++ b.restrictions ++ [p]).Perm
      (a.restrictions ++ b.restrictions ++ [p] ++ [f]) := by
    have hlast := perm_made_last a.restrictions (b.restrictions ++ [p]) f
    simpa only [List.append_assoc] using hlast
  exact .of_eq_ok (restrict_join_eq_ok hboolean hscope) (join_restrict_eq_ok hboolean (.inl hscope))
    { kind := rfl, sources := rfl, columns := rfl, groups := rfl, orders := rfl, restrictions := hperm }

theorem agree_join_of_restrict (hscope : b.valid f = true) :
    Agree (b.restrict (some f) >>= (a.join · p)) (a.join b p >>= (·.restrict (some f))) := by
  have hperm : (a.restrictions ++ (b.restrictions ++ [f]) ++ [p]).Perm
      (a.restrictions ++ b.restrictions ++ [p] ++ [f]) := by
    have hlast := perm_made_last (a.restrictions ++ b.restrictions) [p] f
    simpa only [List.append_assoc] using hlast
  exact .of_eq_ok (join_of_restrict_eq_ok hboolean hscope) (join_restrict_eq_ok hboolean (.inr hscope))
    { kind := rfl, sources := rfl, columns := rfl, groups := rfl, orders := rfl, restrictions := hperm }

end

/-- **Joins are associative, and restrictions pass through them.**  Joining three relations from the left or from
the right succeeds or fails alike, if the first predicate refers to the first two relations and the second one to
the last two.  A restriction of either side of a join may be made after the join.  Each time both ways read the
same sources and give out the same columns in the same order, with the same groups and orders and, up to their
order, the same restrictions. -/
theorem joins_regroup (a b : Relation) (p : Expr) :
    (∀ c q, (∀ x ∈ p.leaves, a.owns x = true ∨ b.owns x = true) →
      (∀ x ∈ q.leaves, b.owns x = true ∨ c.owns x = true) →
      Agree (a.join b p >>= (·.join c q)) (b.join c q >>= (a.join · p))) ∧
      (∀ f, f.type.isBoolean = true → a.valid f = true →
        Agree (a.restrict (some f) >>= (·.join b p)) (a.join b p >>= (·.restrict (some f)))) ∧
      ∀ f, f.type.isBoolean = true → b.valid f = true →
        Agree (b.restrict (some f) >>= (a.join · p)) (a.join b p >>= (·.restrict (some f))) :=
  ⟨fun _ _ hp hq => agree_join_join hp hq, fun _ hboolean hscope => agree_restrict_join hboolean hscope,
    fun _ hboolean hscope => agree_join_of_restrict hboolean hscope⟩

/-- the conditions of `joins_regroup` can be met: by persons, members and years of birth, and by restrictions of persons
and of members -/
theorem joins_regroup_persons :
    (∀ x ∈ (sameNumber personNumber memberNumber).leaves, personTable.owns x = true ∨ memberTable.owns x = true) ∧
      (∀ x ∈ (sameNumber memberNumber personBorn).leaves, memberTable.owns x = true ∨ birthYears.owns x = true) ∧
      (∃ t u, personTable.join memberTable (sameNumber personNumber memberNumber)
          >>= (·.join birthYears (sameNumber memberNumber personBorn)) = .ok t ∧
        memberTable.join birthYears (sameNumber memberNumber personBorn)
          >>= (personTable.join · (sameNumber personNumber memberNumber)) = .ok u ∧ t.SameContents u) ∧
      isMember.type.isBoolean = true ∧ personTable.valid isMember = true ∧
      (∃ t u, personTable.restrict (some isMember)
          >>= (·.join memberTable (sameNumber personNumber memberNumber)) = .ok t ∧
        personTable.join memberTable (sameNumber personNumber memberNumber)
          >>= (·.restrict (some isMember)) = .ok u ∧ t.SameContents u) ∧
      (sameNumber memberNumber memberNumber).type.isBoolean = true ∧
      memberTable.valid (sameNumber memberNumber memberNumber) = true ∧
      ∃ t u, memberTable.restrict (some (sameNumber memberNumber memberNumber))
          >>= (personTable.join · (sameNumber personNumber memberNumber)) = .ok t ∧
        personTable.join memberTable (sameNumber personNumber memberNumber)
          >>= (·.restrict (some (sameNumber memberNumber memberNumber))) = .ok u ∧ t.SameContents u := by
  have hp : ∀ x ∈ (sameNumber personNumber memberNumber).leaves,
      personTable.owns x = true ∨ memberTable.owns x = true := by decide
  have hq : ∀ x ∈ (sameNumber memberNumber personBorn).leaves,
      memberTable.owns x = true ∨ birthYears.owns x = true := by decide
  obtain ⟨hregroup, hleft, hright⟩ := joins_regroup personTable memberTable (sameNumber personNumber memberNumber)
  exact ⟨hp, hq, (hregroup birthYears _ hp hq).exists_sameContents ⟨_, rfl⟩,
    rfl, rfl, (hleft isMember rfl rfl).exists_sameContents ⟨_, rfl⟩,
    rfl, rfl, (hright _ rfl rfl).exists_sameContents ⟨_, rfl⟩⟩

/-- a predicate on the outer two relations is in scope of the join from the left alone -/
example :
    (∃ t, (personTable.join memberTable (sameNumber personNumber memberNumber) >>=
      (·.join birthYears (sameNumber personNumber personBorn))) = .ok t) ∧
      ∃ error, memberTable.join birthYears (sameNumber personNumber personBorn) = .error error :=
  ⟨⟨_, rfl⟩, ⟨_, rfl⟩⟩

end TableAlgebra.Relation
