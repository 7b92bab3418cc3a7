import Mathlib.Data.Fintype.EquivFin
import TableAlgebra.Proofs.Program.Filling

/-!
# Programs that differ in their strings

Two programs that are the same once their strings are blanked out are two fillings of a third one, which
has names in the place of the strings.  The names are chosen for the pairs of strings that the two programs
have at the same place; where the strings are the same, the string is its own name.

* `Program.Alike`              the same but for the strings among host values;
* `Program.SameLabels`         with the same defaults for columns over enumerations;
* `exists_fillings`            names for finitely many pairs of strings;
* `Program.exists_template`    programs that are alike are fillings of one program.
-/

namespace TableAlgebra

/-! ## names for pairs of strings -/

/-- Two fillings under which each pair of strings has a common name.  The names in use are not among the
strings taken, which may have to be names of their own. -/
structure Naming (taken used : Finset String) (σ τ : String → String) (pairs : List (String × String)) :
    Prop where
  free : ∀ x ∈ used, x ∉ taken
  keep : ∀ x, x ∉ used → σ x = x ∧ τ x = x
  agree : ∀ x, σ x = τ x → σ x = x
  named : ∀ ab ∈ pairs, ∃ x ∈ used ∪ taken, σ x = ab.1 ∧ τ x = ab.2

namespace Naming

variable {taken used : Finset String} {σ τ : String → String} {pairs : List (String × String)}

theorem nil (taken : Finset String) : Naming taken ∅ id id [] where
  free x hx := absurd hx (Finset.notMem_empty x)
  keep _ _ := ⟨rfl, rfl⟩
  agree _ _ := rfl
  named _ hab := absurd hab List.not_mem_nil

theorem same (h : Naming taken used σ τ pairs) {a : String} (ha : a ∈ taken) :
    Naming taken used σ τ ((a, a) :: pairs) where
  free := h.free
  keep := h.keep
  agree := h.agree
  named := by
    have hfree : a ∉ used := fun hused => h.free a hused ha
    exact List.forall_mem_cons.mpr ⟨⟨a, Finset.mem_union_right used ha, h.keep a hfree⟩, h.named⟩

/-- two strings that differ are given a new name -/
theorem fresh (h : Naming taken used σ τ pairs) {a b name : String} (hab : a ≠ b)
    (hname : name ∉ used ∪ taken) :
    Naming taken (insert name used) (Function.update σ name a) (Function.update τ name b)
      ((a, b) :: pairs) where
  free x hx := by
    rcases Finset.mem_insert.mp hx with rfl | hx
    · exact fun htaken => hname (Finset.mem_union_right used htaken)
    · exact h.free x hx
  keep x hx := by
    rw [Finset.mem_insert, not_or] at hx
    rw [Function.update_of_ne hx.1, Function.update_of_ne hx.1]
    exact h.keep x hx.2
  agree x hx := by
    by_cases hxn : x = name
    · rw [hxn, Function.update_self, Function.update_self] at hx
      exact absurd hx hab
    · rw [Function.update_of_ne hxn, Function.update_of_ne hxn] at hx
      rw [Function.update_of_ne hxn]
      exact h.agree x hx
  named := by
    refine List.forall_mem_cons.mpr ⟨⟨name, ?_, Function.update_self .., Function.update_self ..⟩, ?_⟩
    · exact Finset.mem_union_left taken (Finset.mem_insert_self name used)
    · intro cd hcd
      obtain ⟨x, hx, hσ, hτ⟩ := h.named cd hcd
      have hne : x ≠ name := fun heq => hname (heq ▸ hx)
      refine ⟨x, ?_, ?_, ?_⟩
      · rw [Finset.insert_union]
        exact Finset.mem_insert_of_mem hx
      · rwa [Function.update_of_ne hne]
      · rwa [Function.update_of_ne hne]

end Naming

theorem exists_naming {taken : Finset String} {pairs : List (String × String)}
    (h : ∀ ab ∈ pairs, ab.1 ∈ taken) : ∃ used σ τ, Naming taken used σ τ pairs := by
  induction pairs with
  | nil => exact ⟨∅, id, id, .nil taken⟩
  | cons ab pairs ih =>
    obtain ⟨a, b⟩ := ab
    obtain ⟨ha, hrest⟩ := List.forall_mem_cons.mp h
    obtain ⟨used, σ, τ, hnaming⟩ := ih hrest
    by_cases hab : a = b
    · subst hab
      exact ⟨used, σ, τ, hnaming.same ha⟩
    · obtain ⟨name, hname⟩ := Infinite.exists_notMem_finset (used ∪ taken)
      exact ⟨_, _, _, hnaming.fresh hab hname⟩

/-- two fillings that give the two strings of each pair for a common name, and keep what they agree on -/
theorem exists_fillings (pairs : List (String × String)) :
    ∃ σ τ : String → String, (∀ ab ∈ pairs, ∃ x, σ x = ab.1 ∧ τ x = ab.2) ∧ ∀ x, σ x = τ x → σ x = x := by
  have htaken : ∀ ab ∈ pairs, ab.1 ∈ (pairs.map Prod.fst).toFinset :=
    fun ab hab => List.mem_toFinset.mpr (List.mem_map_of_mem hab)
  obtain ⟨used, σ, τ, h⟩ := exists_naming htaken
  refine ⟨σ, τ, fun ab hab => ?_, h.agree⟩
  obtain ⟨x, -, hx⟩ := h.named ab hab
  exact ⟨x, hx⟩

/-! ## fillings of one thing -/

/-- every two fillings that give the strings of finitely many pairs fill one thing to `a` and `b` -/
def Twins {α : Type} (fill : (String → String) → α → α) (a b : α) : Prop :=
  ∃ pairs : List (String × String), ∀ σ τ : String → String,
    (∀ ab ∈ pairs, ∃ x, σ x = ab.1 ∧ τ x = ab.2) → ∃ c, fill σ c = a ∧ fill τ c = b

namespace Twins

variable {α β γ : Type} {fill : (String → String) → α → α} {fill' : (String → String) → β → β}
  {fill'' : (String → String) → γ → γ} {a b : α} {a' b' : β}

theorem same (h : ∀ σ, fill σ a = a) : Twins fill a a :=
  ⟨[], fun σ τ _ => ⟨a, h σ, h τ⟩⟩

theorem map {k : α → β} (h : Twins fill a b) (hk : ∀ σ c, fill' σ (k c) = k (fill σ c)) :
    Twins fill' (k a) (k b) := by
  obtain ⟨pairs, h⟩ := h
  refine ⟨pairs, fun σ τ hpairs => ?_⟩
  obtain ⟨c, rfl, rfl⟩ := h σ τ hpairs
  exact ⟨k c, hk σ c, hk τ c⟩

theorem map₂ {k : α → β → γ} (h : Twins fill a b) (h' : Twins fill' a' b')
    (hk : ∀ σ c c', fill'' σ (k c c') = k (fill σ c) (fill' σ c')) : Twins fill'' (k a a') (k b b') := by
  obtain ⟨pairs, h⟩ := h
  obtain ⟨pairs', h'⟩ := h'
  refine ⟨pairs ++ pairs', fun σ τ hpairs => ?_⟩
  obtain ⟨hpairs, hpairs'⟩ := List.forall_mem_append.mp hpairs
  obtain ⟨c, rfl, rfl⟩ := h σ τ hpairs
  obtain ⟨c', rfl, rfl⟩ := h' σ τ hpairs'
  exact ⟨k c c', hk σ c c', hk τ c c'⟩

theorem list {as bs : List α} (h : List.Forall₂ (Twins fill) as bs) :
    Twins (fun σ => List.map (fill σ)) as bs := by
  induction h with
  | nil => exact same fun σ => rfl
  | cons hab _ ih => exact map₂ hab ih fun σ c cs => rfl

end Twins

/-! ## the same but for the strings -/

/-- every string blanked out -/
def blank : String → String := fun _ => ""

theorem forall₂_of_map_eq {α β : Type} {f : α → β} {r : α → α → Prop} (h : ∀ a b, f a = f b → r a b)
    {as bs : List α} (heq : as.map f = bs.map f) : List.Forall₂ r as bs := by
  have hmap : List.Forall₂ (fun a b => f a = f b) as bs := by
    rw [← List.forall₂_map_left_iff (f := f) (R := fun x b => x = f b), heq, List.forall₂_map_left_iff,
      List.forall₂_same]
    exact fun _ _ => rfl
  exact hmap.imp h

theorem Value.twins {v w : Value} (h : v.fill blank = w.fill blank) : Twins Value.fill v w := by
  cases v with
  | string s =>
    cases w with
    | string t =>
      refine ⟨[(s, t)], fun σ τ hpairs => ?_⟩
      obtain ⟨x, rfl, rfl⟩ := hpairs (s, t) (List.mem_singleton_self _)
      exact ⟨.string x, rfl, rfl⟩
    | _ => exact nomatch h
  | bool v =>
    cases w with
    | bool w =>
      obtain rfl : v = w := Value.bool.inj h
      exact .same fun σ => rfl
    | _ => exact nomatch h
  | int v =>
    cases w with
    | int w =>
      obtain rfl : v = w := Value.int.inj h
      exact .same fun σ => rfl
    | _ => exact nomatch h
  | float v =>
    cases w with
    | float w =>
      obtain rfl : v = w := Value.float.inj h
      exact .same fun σ => rfl
    | _ => exact nomatch h

theorem twins_option {α : Type} {fill : (String → String) → α → α}
    (hfill : ∀ a b, fill blank a = fill blank b → Twins fill a b) {a b : Option α}
    (h : a.map (fill blank) = b.map (fill blank)) : Twins (fun σ => Option.map (fill σ)) a b := by
  cases a with
  | none =>
    cases b with
    | none => exact .same fun σ => rfl
    | some b => exact nomatch h
  | some a =>
    cases b with
    | none => exact nomatch h
    | some b => exact (hfill a b (Option.some.inj h)).map fun σ c => rfl

theorem Qualifiers.twins {q q' : Qualifiers} (h : q.fill blank = q'.fill blank) :
    Twins Qualifiers.fill q q' := by
  obtain ⟨unique, autoIncrement, primaryKey, notNull, default⟩ := q
  obtain ⟨_, _, _, _, default'⟩ := q'
  simp only [fill, mk.injEq] at h
  obtain ⟨rfl, rfl, rfl, rfl, hdefault⟩ := h
  exact (twins_option (fun _ _ => Value.twins) hdefault).map (k := mk _ _ _ _) fun σ c => rfl

theorem Argument.twins {x y : Argument} (h : x.fill blank = y.fill blank) : Twins Argument.fill x y := by
  cases x with
  | made number =>
    cases y with
    | made number' =>
      obtain rfl : number = number' := Argument.made.inj h
      exact .same fun σ => rfl
    | value w => exact nomatch h
  | value v =>
    cases y with
    | made number => exact nomatch h
    | value w => exact (Value.twins (Argument.value.inj h)).map fun σ c => rfl

theorem twins_fillNamed {xs ys : List (String × Argument)} (h : fillNamed blank xs = fillNamed blank ys) :
    Twins fillNamed xs ys := by
  have hnamed : List.Forall₂ (Twins fun σ (n : String × Argument) => (n.1, n.2.fill σ)) xs ys := by
    refine forall₂_of_map_eq (fun x y hxy => ?_) h
    obtain ⟨key, x⟩ := x
    obtain ⟨key', y⟩ := y
    have hpair : (key, x.fill blank) = (key', y.fill blank) := hxy
    obtain ⟨rfl, hvalue⟩ := Prod.mk.inj hpair
    exact (Argument.twins hvalue).map (k := fun c => (key, c)) fun σ c => rfl
  exact Twins.list hnamed

theorem twins_optional {x y : Option Argument}
    (h : x.map (Argument.fill blank) = y.map (Argument.fill blank)) :
    Twins (fun σ => Option.map (Argument.fill σ)) x y :=
  twins_option (fun _ _ => Argument.twins) h

theorem Call.twins {c c' : Call} (h : c.fill blank = c'.fill blank) : Twins Call.fill c c' := by
  cases c with
  | enumeration labels =>
    cases c' with
    | enumeration labels' =>
      obtain rfl : labels = labels' := Call.enumeration.inj h
      exact .same fun σ => rfl
    | _ => exact nomatch h
  | domain name base defaults =>
    cases c' with
    | domain name' base' defaults' =>
      obtain ⟨rfl, rfl, hdefaults⟩ := Call.domain.inj h
      exact (Qualifiers.twins hdefaults).map fun σ c => rfl
    | _ => exact nomatch h
  | label number text =>
    cases c' with
    | label number' text' =>
      obtain ⟨rfl, rfl⟩ := Call.label.inj h
      exact .same fun σ => rfl
    | _ => exact nomatch h
  | declare name type own =>
    cases c' with
    | declare name' type' own' =>
      obtain ⟨rfl, rfl, hown⟩ := Call.declare.inj h
      exact (Qualifiers.twins hown).map fun σ c => rfl
    | _ => exact nomatch h
  | table name attributes options =>
    cases c' with
    | table name' attributes' options' =>
      obtain ⟨rfl, rfl, rfl⟩ := Call.table.inj h
      exact .same fun σ => rfl
    | _ => exact nomatch h
  | column relation key =>
    cases c' with
    | column relation' key' =>
      obtain ⟨rfl, rfl⟩ := Call.column.inj h
      exact .same fun σ => rfl
    | _ => exact nomatch h
  | apply op left right =>
    cases c' with
    | apply op' left' right' =>
      obtain ⟨rfl, hleft, hright⟩ := Call.apply.inj h
      exact (Argument.twins hleft).map₂ (Argument.twins hright) fun σ c c' => rfl
    | _ => exact nomatch h
  | member operand relation =>
    cases c' with
    | member operand' relation' =>
      obtain ⟨hoperand, rfl⟩ := Call.member.inj h
      exact (Argument.twins hoperand).map (k := (member · _)) fun σ c => rfl
    | _ => exact nomatch h
  | count operand =>
    cases c' with
    | count operand' => exact (Argument.twins (Call.count.inj h)).map fun σ c => rfl
    | _ => exact nomatch h
  | avg operand =>
    cases c' with
    | avg operand' => exact (Argument.twins (Call.avg.inj h)).map fun σ c => rfl
    | _ => exact nomatch h
  | project relation columns =>
    cases c' with
    | project relation' columns' =>
      obtain ⟨rfl, hcolumns⟩ := Call.project.inj h
      exact (twins_fillNamed hcolumns).map fun σ c => rfl
    | _ => exact nomatch h
  | restrict relation predicate =>
    cases c' with
    | restrict relation' predicate' =>
      obtain ⟨rfl, hpredicate⟩ := Call.restrict.inj h
      exact (twins_optional hpredicate).map fun σ c => rfl
    | _ => exact nomatch h
  | join left right on =>
    cases c' with
    | join left' right' on' =>
      obtain ⟨rfl, rfl, hon⟩ := Call.join.inj h
      exact (Argument.twins hon).map fun σ c => rfl
    | _ => exact nomatch h
  | group relation key =>
    cases c' with
    | group relation' key' =>
      obtain ⟨rfl, hkey⟩ := Call.group.inj h
      exact (Argument.twins hkey).map fun σ c => rfl
    | _ => exact nomatch h
  | order relation key =>
    cases c' with
    | order relation' key' =>
      obtain ⟨rfl, hkey⟩ := Call.order.inj h
      exact (Argument.twins hkey).map fun σ c => rfl
    | _ => exact nomatch h

theorem Request.twins {q q' : Request} (h : q.fill blank = q'.fill blank) : Twins Request.fill q q' := by
  cases q with
  | select relation rename =>
    cases q' with
    | select relation' rename' =>
      obtain ⟨rfl, rfl⟩ := Request.select.inj h
      exact .same fun σ => rfl
    | _ => exact nomatch h
  | create relation =>
    cases q' with
    | create relation' =>
      obtain rfl : relation = relation' := Request.create.inj h
      exact .same fun σ => rfl
    | _ => exact nomatch h
  | drop relation =>
    cases q' with
    | drop relation' =>
      obtain rfl : relation = relation' := Request.drop.inj h
      exact .same fun σ => rfl
    | _ => exact nomatch h
  | insert relation rows =>
    cases q' with
    | insert relation' rows' =>
      obtain ⟨rfl, hrows⟩ := Request.insert.inj h
      exact (Twins.list (forall₂_of_map_eq (fun _ _ => twins_fillNamed) hrows)).map fun σ c => rfl
    | _ => exact nomatch h
  | update relation row condition =>
    cases q' with
    | update relation' row' condition' =>
      obtain ⟨rfl, hrow, hcondition⟩ := Request.update.inj h
      exact (twins_fillNamed hrow).map₂ (twins_optional hcondition) fun σ c c' => rfl
    | _ => exact nomatch h
  | remove relation condition =>
    cases q' with
    | remove relation' condition' =>
      obtain ⟨rfl, hcondition⟩ := Request.remove.inj h
      exact (twins_optional hcondition).map fun σ c => rfl
    | _ => exact nomatch h

theorem Program.twins {p q : Program} (h : p.fill blank = q.fill blank) : Twins Program.fill p q := by
  obtain ⟨calls, request⟩ := p
  obtain ⟨calls', request'⟩ := q
  obtain ⟨hcalls, hrequest⟩ := Program.mk.inj h
  have hlist := Twins.list (forall₂_of_map_eq (fun _ _ => Call.twins) hcalls)
  exact hlist.map₂ (Request.twins hrequest) fun σ c c' => rfl

/-! ## labels as defaults -/

/-- declarations of columns over an enumeration have the same default -/
def Call.SameLabel (s s' : Workbench) : Call → Call → Prop
  | declare _ type own, declare _ type' own' => ∀ t t', s.type? type = some t → s'.type? type' = some t' →
    t.underlying.kind = .enum → (own.inherit t.defaults).default = (own'.inherit t'.defaults).default
  | _, _ => True

/-- the calls that follow, one after the other, declare columns over enumerations with the same defaults -/
def Workbench.SameLabels : Workbench → Workbench → List Call → List Call → Prop
  | s, s', c :: calls, c' :: calls' =>
    c.SameLabel s s' c' ∧ (s.step c).SameLabels (s'.step c') calls calls'
  | _, _, _, _ => True

section

variable {σ τ : String → String} {R : Roster} {s : Workbench}

/-- a default that two fillings agree on is kept by both, if they keep what they agree on -/
theorem Call.keeps_of_sameLabel (hagree : ∀ x, σ x = τ x → σ x = x) {c : Call}
    (hl : (c.fill σ).SameLabel (s.fill σ) (s.fill τ) (c.fill τ)) : c.Keeps σ s ∧ c.Keeps τ s := by
  cases c with
  | declare name type own =>
    have hkeep : ∀ t, s.type? type = some t → t.underlying.kind = .enum →
        ∀ v, (own.inherit t.defaults).default = some v → v.fill σ = v ∧ v.fill τ = v := by
      intro t ht henum v hv
      have hσ : (s.fill σ).type? type = some (t.fill σ) := by
        rw [s.type?_fill, ht]
        rfl
      have hτ : (s.fill τ).type? type = some (t.fill τ) := by
        rw [s.type?_fill, ht]
        rfl
      have hsame := hl _ _ hσ hτ (by rwa [DataType.underlying_fill])
      rw [DataType.defaults_fill, DataType.defaults_fill, Qualifiers.inherit_fill,
        Qualifiers.inherit_fill] at hsame
      simp only [Qualifiers.fill, hv, Option.map_some, Option.some.injEq] at hsame
      cases v with
      | string x =>
        have hx : σ x = τ x := Value.string.inj hsame
        have hself := hagree x hx
        exact ⟨congrArg Value.string hself, congrArg Value.string (hx ▸ hself)⟩
      | _ => exact ⟨rfl, rfl⟩
    exact ⟨fun t ht henum v hv => (hkeep t ht henum v hv).1, fun t ht henum v hv => (hkeep t ht henum v hv).2⟩
  | _ => exact ⟨trivial, trivial⟩

theorem Workbench.keeps_of_sameLabels (h : s.Grounded R) (hagree : ∀ x, σ x = τ x → σ x = x)
    {calls : List Call}
    (hl : (s.fill σ).SameLabels (s.fill τ) (calls.map (Call.fill σ)) (calls.map (Call.fill τ))) :
    s.Keeps σ calls ∧ s.Keeps τ calls := by
  induction calls generalizing R s with
  | nil => exact ⟨trivial, trivial⟩
  | cons c calls ih =>
    obtain ⟨hσ, hτ⟩ := Call.keeps_of_sameLabel hagree hl.1
    have hrest := hl.2
    rw [step_fill h hσ, step_fill h hτ] at hrest
    obtain ⟨S, hS⟩ := h.step c
    obtain ⟨hσs, hτs⟩ := ih hS hrest
    exact ⟨⟨hσ, hσs⟩, hτ, hτs⟩

end

namespace Program

/-- the programs are the same but for the strings among their host values -/
def Alike (p q : Program) : Prop := p.fill blank = q.fill blank

/-- columns over enumerations have the same defaults in both programs -/
def SameLabels (p q : Program) : Prop := Workbench.start.SameLabels Workbench.start p.calls q.calls

/-- programs that are alike are two fillings of one program, and both keep the labels -/
theorem exists_template {p q : Program} (h : p.Alike q) (hlabels : p.SameLabels q) :
    ∃ (r : Program) (σ τ : String → String),
      r.fill σ = p ∧ r.fill τ = q ∧ r.Keeps σ ∧ r.Keeps τ := by
  obtain ⟨pairs, htwins⟩ := Program.twins h
  obtain ⟨σ, τ, hpairs, hagree⟩ := exists_fillings pairs
  obtain ⟨r, rfl, rfl⟩ := htwins σ τ hpairs
  exact ⟨r, σ, τ, rfl, rfl, Workbench.keeps_of_sameLabels Workbench.Grounded.start hagree hlabels⟩

end Program

end TableAlgebra
