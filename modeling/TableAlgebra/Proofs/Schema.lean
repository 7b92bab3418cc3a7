import TableAlgebra.Proofs.OrderedMap
import TableAlgebra.Proofs.Relation.Derivation
import TableAlgebra.Schema

/-!
# Schemas built by declarations

A schema grows by declarations of tables.  Those that fail leave no trace in it, so its entries are the
tables of the declarations that succeeded, in their order and each under its own name.

* `Schema.register`            the schema after a declaration, whether it succeeds or not;
* `Schema.declareAll`          the schema that declarations build;
* `Schema.exists_accepted`     its entries, by the declarations that succeeded.
-/

namespace TableAlgebra.Schema

theorem declare_eq_ok {s s' : Schema} {serial : Serial} {name : String} {attributes : List Attribute}
    {options : OrderedMap Value} {t : Relation} :
    s.declare serial name attributes options = .ok (t, s') ↔
      name ∉ s.tables.keys ∧ Relation.table serial name attributes options = .ok t ∧
        s' = ⟨s.tables.insert name t⟩ := by
  unfold declare
  by_cases hname : s.tables.contains name = true
  · rw [if_pos hname]
    have hmem := OrderedMap.contains_iff.mp hname
    exact ⟨fun h => (nomatch h), fun h => absurd hmem h.1⟩
  · rw [if_neg hname]
    have hmem : name ∉ s.tables.keys := fun h => hname (OrderedMap.contains_iff.mpr h)
    show (Relation.table serial name attributes options >>= fun t =>
      (.ok (t, ⟨s.tables.insert name t⟩) : Except AlgebraError (Relation × Schema))) = _ ↔ _
    rw [bind_eq_ok]
    constructor
    · rintro ⟨t', ht, h⟩
      obtain ⟨rfl, rfl⟩ := Prod.mk.inj (Except.ok.inj h)
      exact ⟨hmem, ht, rfl⟩
    · rintro ⟨-, ht, rfl⟩
      exact ⟨t, ht, rfl⟩

/-- the schema after a declaration; one that fails leaves it as it is -/
def register (s : Schema) (c : TableDeclaration) : Schema :=
  match s.declare c.serial c.name c.attributes c.options with
  | .ok (_, s') => s'
  | .error _ => s

def declareAll (cs : List TableDeclaration) : Schema := cs.foldl register empty

/-- the entry of a declaration that succeeded -/
def Enters (c : TableDeclaration) (e : String × Relation) : Prop := c.name = e.1 ∧ c.run = .ok e.2

theorem entries_register (s : Schema) (c : TableDeclaration) :
    (s.register c).tables.entries = s.tables.entries ∨
      ∃ e, Enters c e ∧ (s.register c).tables.entries = s.tables.entries ++ [e] := by
  unfold register
  split
  case h_2 => exact .inl rfl
  case h_1 t s' h =>
    obtain ⟨hname, ht, rfl⟩ := declare_eq_ok.mp h
    exact .inr ⟨(c.name, t), ⟨rfl, ht⟩, OrderedMap.entries_insert_of_not_mem hname⟩

theorem entries_foldl_register (cs : List TableDeclaration) (s : Schema) :
    ∃ accepted more, accepted.Sublist cs ∧ List.Forall₂ Enters accepted more ∧
      (cs.foldl register s).tables.entries = s.tables.entries ++ more := by
  induction cs generalizing s with
  | nil => exact ⟨[], [], List.Sublist.slnil, .nil, (List.append_nil _).symm⟩
  | cons c cs ih =>
    rw [List.foldl_cons]
    obtain ⟨accepted, more, hsub, hmore, heq⟩ := ih (s.register c)
    rcases entries_register s c with h | ⟨e, he, h⟩
    · exact ⟨accepted, more, hsub.cons c, hmore, h ▸ heq⟩
    · refine ⟨c :: accepted, e :: more, hsub.cons_cons c, .cons he hmore, ?_⟩
      rw [heq, h, List.append_assoc, List.singleton_append]

/-- **The entries of a schema** are the tables of the declarations that succeeded, in their order and
each under its own name. -/
theorem exists_accepted (cs : List TableDeclaration) :
    ∃ accepted, accepted.Sublist cs ∧ List.Forall₂ Enters accepted (declareAll cs).tables.entries := by
  obtain ⟨accepted, more, hsub, hmore, heq⟩ := entries_foldl_register cs empty
  refine ⟨accepted, hsub, ?_⟩
  rw [declareAll, heq]
  exact hmore

theorem exists_declaration {cs : List TableDeclaration} {e : String × Relation}
    (he : e ∈ (declareAll cs).tables.entries) : ∃ c ∈ cs, Enters c e := by
  obtain ⟨accepted, hsub, hentries⟩ := exists_accepted cs
  obtain ⟨c, hc, henters⟩ := exists_mem_of_forall₂ hentries he
  exact ⟨c, hsub.subset hc, henters⟩

end TableAlgebra.Schema
