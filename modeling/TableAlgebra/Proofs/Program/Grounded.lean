import Mathlib.Data.List.Nodup
import TableAlgebra.Proofs.Filling.Statement
import TableAlgebra.Proofs.Program.Calls

/-!
# What a program has made

Serial numbers are handed out once, so the domains and attributes of a program are known by them; and what
the calls make is built from these domains and attributes.  This is the invariant of a workbench: it holds
before the first call, a call keeps it, and so it holds of every workbench that a program gets to.

* `Made.Grounded`, `Workbench.Grounded`   the invariant, over a roster of domains and attributes;
* `Workbench.Grounded.step`               one call keeps it, over a roster that may have grown;
* `Workbench.exists_grounded_run`         it holds after any calls;
* `Workbench.Grounded.forall_made_run`    other invariants of what is made, from one call to all of them;
* `Request.command?_grounded`           so the commands of programs are about derived relations.
-/

namespace TableAlgebra

/-! ## rosters that grow -/

/-- everything in use stays in use -/
structure Roster.Sub (R S : Roster) : Prop where
  domains : R.domains ⊆ S.domains
  attributes : R.attributes ⊆ S.attributes

theorem Roster.Sub.refl (R : Roster) : R.Sub R := ⟨fun _ h => h, fun _ h => h⟩

/-- what a call has made is built from domains and attributes in use -/
def Made.Grounded (R : Roster) : Made → Prop
  | type t => t.In R
  | label v => v.domain ∈ R.domains
  | attr a => a ∈ R.attributes ∧ a.Declared
  | expr e => e.Grounded R
  | relation r => r.Grounded R

section

variable {R S : Roster} (h : R.Sub S)

include h

theorem DataType.In.mono {t : DataType} (ht : t.In R) : t.In S := by
  cases t with
  | base b => trivial
  | domain d => exact h.domains ht

theorem Expr.In.mono {e : Expr} (he : e.In R) : e.In S :=
  ⟨he.type.mono h, fun a ha => h.attributes (he.leaf a ha)⟩

theorem Made.Grounded.mono {m : Made} (hm : m.Grounded R) : m.Grounded S := by
  cases m with
  | type t => exact DataType.In.mono h hm
  | label v => exact h.domains hm
  | attr a => exact ⟨h.attributes hm.1, hm.2⟩
  | expr e => exact ⟨Expr.In.mono h hm.toIn, hm.made, hm.subselect⟩
  | relation r => exact ⟨fun e he => Expr.In.mono h (hm.within e he), hm.derived⟩

end

/-- the serial number of the declaration that an attribute comes from -/
def Origin.serial : Origin → Serial
  | loose serial => serial
  | bound owner => owner.serial

/-- the invariant of a workbench: the domains and attributes in use are known by serial numbers that were
handed out, and everything that was made is built from them -/
structure Workbench.Grounded (R : Roster) (s : Workbench) : Prop where
  unique : R.Unique
  domain_lt : ∀ d ∈ R.domains, d.serial.number < s.next.number
  attribute_lt : ∀ a ∈ R.attributes, a.origin.serial.number < s.next.number
  attribute_type : ∀ a ∈ R.attributes, a.type.In R
  made : ∀ m, some m ∈ s.made → m.Grounded R

namespace Workbench.Grounded

variable {R S : Roster} {s : Workbench}

theorem start : Workbench.start.Grounded ⟨[], []⟩ where
  unique := ⟨fun _ h => absurd h List.not_mem_nil, fun _ h => absurd h List.not_mem_nil⟩
  domain_lt _ h := absurd h List.not_mem_nil
  attribute_lt _ h := absurd h List.not_mem_nil
  attribute_type _ h := absurd h List.not_mem_nil
  made m hm := by
    simp only [Workbench.start, List.mem_cons, Option.some.injEq, List.not_mem_nil, or_false] at hm
    rcases hm with rfl | rfl | rfl | rfl <;> trivial

/-! ## looking up -/

theorem find? (h : s.Grounded R) {number : Nat} {m : Made} (hm : s.find? number = some m) :
    m.Grounded R := h.made m (mem_made_of_find? hm)

theorem type? (h : s.Grounded R) {number : Nat} {t : DataType} (ht : s.type? number = some t) : t.In R := by
  obtain ⟨m, hm, hmt⟩ := Option.bind_eq_some_iff.mp ht
  have hmade := h.find? hm
  cases m <;> simp only [Made.type?, Option.some.injEq, reduceCtorEq] at hmt
  exact hmt ▸ hmade

theorem domain? (h : s.Grounded R) {number : Nat} {d : Domain} (hd : s.domain? number = some d) :
    d ∈ R.domains := by
  obtain ⟨m, hm, hmd⟩ := Option.bind_eq_some_iff.mp hd
  have hmade := h.find? hm
  unfold Made.domain? at hmd
  split at hmd
  · exact Option.some.inj hmd ▸ hmade
  · exact nomatch hmd

theorem attribute? (h : s.Grounded R) {number : Nat} {a : Attribute} (ha : s.attribute? number = some a) :
    a ∈ R.attributes ∧ a.Declared := by
  obtain ⟨m, hm, hma⟩ := Option.bind_eq_some_iff.mp ha
  have hmade := h.find? hm
  cases m <;> simp only [Made.attribute?, Option.some.injEq, reduceCtorEq] at hma
  exact hma ▸ hmade

theorem relation? (h : s.Grounded R) {number : Nat} {r : Relation} (hr : s.relation? number = some r) :
    r.Grounded R := h.made _ (mem_made_of_relation? hr)

theorem operand? (h : s.Grounded R) {argument : Argument} {o : Operand}
    (ho : s.operand? argument = some o) : o.Grounded R := by
  cases argument with
  | value v => exact Option.some.inj ho ▸ .value v
  | made number =>
    obtain ⟨m, hm, hmo⟩ := Option.bind_eq_some_iff.mp ho
    have hmade := h.find? hm
    cases m with
    | label v => exact Option.some.inj hmo ▸ .label hmade
    | attr a => exact Option.some.inj hmo ▸ .expr (.attr hmade.1 (h.attribute_type a hmade.1))
    | expr e => exact Option.some.inj hmo ▸ .expr hmade
    | type t => exact nomatch hmo
    | relation r => exact nomatch hmo

theorem expr? (h : s.Grounded R) {argument : Argument} {e : Expr} (he : s.expr? argument = some e) :
    e.Grounded R := by
  obtain ⟨o, ho, hoe⟩ := Option.bind_eq_some_iff.mp he
  cases hexpr : o.toExpr with
  | error err => exact nomatch hexpr ▸ hoe
  | ok e' =>
    rw [hexpr] at hoe
    exact Option.some.inj hoe ▸ h.operand? ho e' hexpr

theorem named? (h : s.Grounded R) {arguments : List (String × Argument)}
    {operands : List (String × Operand)} (ho : s.named? arguments = some operands) :
    ∀ n ∈ operands, n.2.Grounded R := by
  refine forall_mem_of_mapM (fun argument n hn => ?_) ho
  obtain ⟨o, ho, rfl⟩ := Option.map_eq_some_iff.mp hn
  exact h.operand? ho

theorem condition? (h : s.Grounded R) {argument : Option Argument} {condition : Option Expr}
    (hc : s.condition? argument = some condition) : ∀ e ∈ condition, e.Grounded R := by
  cases argument with
  | none =>
    cases hc
    exact fun e he => nomatch he
  | some argument =>
    obtain ⟨e, he, rfl⟩ := Option.map_eq_some_iff.mp hc
    intro e' he'
    cases he'
    exact h.expr? he

/-! ## one call -/

/-- after a call there is one more thing, over a roster that may have grown by what the call declared -/
theorem push (h : s.Grounded R) (hsub : R.Sub S) (hunique : S.Unique)
    (hdomain : ∀ d ∈ S.domains, d ∈ R.domains ∨ d.serial = s.next)
    (hattribute : ∀ a ∈ S.attributes, a ∈ R.attributes ∨ a.origin.serial = s.next ∧ a.type.In R)
    {m : Option Made} (hm : ∀ made ∈ m, made.Grounded S) :
    Workbench.Grounded S ⟨s.next.next, s.made ++ [m]⟩ where
  unique := hunique
  domain_lt d hd := by
    show d.serial.number < s.next.number + 1
    rcases hdomain d hd with hd | hd
    · exact Nat.lt_succ_of_lt (h.domain_lt d hd)
    · rw [hd]
      exact Nat.lt_succ_self _
  attribute_lt a ha := by
    show a.origin.serial.number < s.next.number + 1
    rcases hattribute a ha with ha | ⟨ha, -⟩
    · exact Nat.lt_succ_of_lt (h.attribute_lt a ha)
    · rw [ha]
      exact Nat.lt_succ_self _
  attribute_type a ha := by
    rcases hattribute a ha with ha | ⟨-, ht⟩
    · exact (h.attribute_type a ha).mono hsub
    · exact ht.mono hsub
  made made hmade := by
    rcases List.mem_append.mp hmade with hmade | hmade
    · exact (h.made made hmade).mono hsub
    · exact hm made (List.mem_singleton.mp hmade).symm

theorem keep (h : s.Grounded R) {m : Option Made} (hm : ∀ made ∈ m, made.Grounded R) :
    Workbench.Grounded R ⟨s.next.next, s.made ++ [m]⟩ :=
  h.push (.refl R) h.unique (fun _ hd => .inl hd) (fun _ ha => .inl ha) hm

theorem domain (h : s.Grounded R) {d : Domain} (hd : d.serial = s.next) :
    Workbench.Grounded ⟨d :: R.domains, R.attributes⟩ ⟨s.next.next, s.made ++ [some (.type (.domain d))]⟩ := by
  have hnew : ∀ e ∈ R.domains, e.serial ≠ d.serial := by
    intro e he heq
    have hlt := h.domain_lt e he
    rw [heq, hd] at hlt
    exact absurd hlt (Nat.lt_irrefl _)
  have hsub : R.Sub ⟨d :: R.domains, R.attributes⟩ :=
    ⟨List.subset_cons_self d R.domains, List.Subset.refl _⟩
  refine h.push hsub ⟨?_, h.unique.attribute_eq⟩ ?_ (fun _ ha => .inl ha) ?_
  · intro e he f hf heq
    rcases List.mem_cons.mp he with he' | he' <;> rcases List.mem_cons.mp hf with hf' | hf'
    · exact he'.trans hf'.symm
    · exact absurd (he' ▸ heq.symm) (hnew f hf')
    · exact absurd (hf' ▸ heq) (hnew e he')
    · exact h.unique.domain_eq e he' f hf' heq
  · intro e he
    rcases List.mem_cons.mp he with rfl | he
    · exact .inr hd
    · exact .inl he
  · rintro _ ⟨⟩
    exact List.mem_cons_self

/-- new attributes, with names of their own -/
theorem attributes (h : s.Grounded R) {as : List Attribute} (hnames : (as.map Attribute.name).Nodup)
    (has : ∀ a ∈ as, a.origin.serial = s.next ∧ a.type.In R) {m : Made}
    (hm : m.Grounded ⟨R.domains, as ++ R.attributes⟩) :
    Workbench.Grounded ⟨R.domains, as ++ R.attributes⟩ ⟨s.next.next, s.made ++ [some m]⟩ := by
  have hnew : ∀ a ∈ as, ∀ b ∈ R.attributes, a.origin ≠ b.origin := by
    intro a ha b hb heq
    have hlt := h.attribute_lt b hb
    rw [← heq, (has a ha).1] at hlt
    exact absurd hlt (Nat.lt_irrefl _)
  have hsub : R.Sub ⟨R.domains, as ++ R.attributes⟩ :=
    ⟨List.Subset.refl _, List.subset_append_right as R.attributes⟩
  refine h.push hsub ⟨h.unique.domain_eq, ?_⟩ (fun _ hd => .inl hd) ?_ ?_
  · intro a ha b hb horigin hname
    rcases List.mem_append.mp ha with ha | ha <;> rcases List.mem_append.mp hb with hb | hb
    · exact List.inj_on_of_nodup_map hnames ha hb hname
    · exact absurd horigin (hnew a ha b hb)
    · exact absurd horigin.symm (hnew b hb a ha)
    · exact h.unique.attribute_eq a ha b hb horigin hname
  · intro a ha
    rcases List.mem_append.mp ha with ha | ha
    · exact .inr (has a ha)
    · exact .inl ha
  · rintro _ ⟨⟩
    exact hm

end Workbench.Grounded

theorem Domain.serial_of_declare {serial : Serial} {name : String} {t : DataType} {defaults : Qualifiers}
    {d : Domain} (h : declare serial name t defaults = .ok d) : d.serial = serial := by
  unfold declare at h
  obtain ⟨_, -, h⟩ := bind_eq_ok.mp h
  cases t with
  | base b =>
    cases h
    rfl
  | domain e => exact nomatch h

theorem Domain.domain_of_value {d : Domain} {label : String} {v : EnumValue} (h : d.value label = .ok v) :
    v.domain = d := by
  unfold value at h
  split at h
  · cases h
    rfl
  · exact nomatch h

/-- the call makes something of what there is already, and declares neither a domain nor attributes -/
def Call.derives : Call → Bool
  | domain _ _ _ => false
  | declare _ _ _ => false
  | table _ _ _ => false
  | _ => true

namespace Workbench.Grounded

variable {R : Roster} {s : Workbench}

/-- a call of a builder that declares nothing makes grounded things of grounded things -/
theorem run_of_derives (h : s.Grounded R) {c : Call} (hc : c.derives = true) {m : Made}
    (hm : c.run s = some m) : m.Grounded R := by
  cases Call.yields_of_run hm with
  | enumeration _ => trivial
  | domain _ _ => exact nomatch hc
  | @label _ _ d v domain made =>
    show v.domain ∈ R.domains
    rw [Domain.domain_of_value made]
    exact h.domain? domain
  | declare _ _ => exact nomatch hc
  | table _ _ => exact nomatch hc
  | column relation made => exact (h.relation? relation).attr made
  | apply left right wrapped made => exact (h.expr? left).combine (h.operand? right _ wrapped) made
  | member tested relation made => exact (h.expr? tested).isIn (h.relation? relation) made
  | count counted => exact (h.expr? counted).count
  | avg averaged made => exact (h.expr? averaged).avg made
  | project relation given made =>
    have hgiven := forall_exprs_project (fun ho _ he => h.operand? ho _ he) given
    exact (h.relation? relation).step hgiven made
  | restrict relation given made =>
    have hgiven := forall_exprs_restrict (fun ho _ he => h.operand? ho _ he) given
    exact (h.relation? relation).step hgiven made
  | join left right given made => exact (h.relation? left).join (h.relation? right) (h.expr? given) made
  | group relation given made =>
    refine (h.relation? relation).step (fun e he => ?_) made
    exact List.mem_singleton.mp he ▸ h.expr? given
  | order relation given made =>
    refine (h.relation? relation).step (fun e he => ?_) made
    exact List.mem_singleton.mp he ▸ h.expr? given

/-- **A call keeps the invariant**, over a roster that grows by what the call declares. -/
theorem step (h : s.Grounded R) (c : Call) : ∃ S, (s.step c).Grounded S := by
  cases hc : c.derives with
  | true => exact ⟨R, h.keep fun m hm => h.run_of_derives hc hm⟩
  | false =>
    unfold Workbench.step
    cases hm : c.run s with
    | none => exact ⟨R, h.keep fun m hm => nomatch hm⟩
    | some m =>
      cases Call.yields_of_run hm with
      | domain type made => exact ⟨_, h.domain (Domain.serial_of_declare made)⟩
      | @declare _ _ _ t a type made =>
        obtain ⟨-, -, -, heq⟩ := Attribute.declare_eq_ok.mp made
        have hnames : ([a].map Attribute.name).Nodup := List.nodup_singleton a.name
        have horigin : a.origin.serial = s.next := heq ▸ rfl
        have htype : a.type.In R := heq ▸ h.type? type
        exact ⟨_, h.attributes hnames (List.forall_mem_singleton.mpr ⟨horigin, htype⟩)
          ⟨List.mem_cons_self, .declare made⟩⟩
      | @table name _ _ as t attributes made =>
        have hmem : ∀ a ∈ as, a ∈ R.attributes ∧ a.Declared :=
          forall_mem_of_mapM (fun number a ha => h.attribute? ha) attributes
        have hnames : ((as.map (·.bind ⟨s.next, name⟩)).map Attribute.name).Nodup := by
          rw [List.map_map]
          exact (Relation.table_eq_ok.mp made).2.1
        have hbound : ∀ a ∈ as.map (·.bind ⟨s.next, name⟩), a.origin.serial = s.next ∧ a.type.In R := by
          rw [List.forall_mem_map]
          exact fun a ha => ⟨rfl, h.attribute_type a (hmem a ha).1⟩
        refine ⟨_, h.attributes hnames hbound (.table (fun a ha => (hmem a ha).2) (fun a ha => ?_) made)⟩
        have hsub : R.Sub ⟨R.domains, as.map (·.bind ⟨s.next, name⟩) ++ R.attributes⟩ :=
          ⟨List.Subset.refl _, List.subset_append_right _ _⟩
        exact ⟨List.mem_append_left _ ha, (hbound a ha).2.mono hsub⟩
      | _ => exact nomatch hc

theorem run (h : s.Grounded R) (calls : List Call) : ∃ S, (s.run calls).Grounded S := by
  induction calls generalizing R s with
  | nil => exact ⟨R, h⟩
  | cons c calls ih =>
    obtain ⟨S, hS⟩ := h.step c
    exact ih hS

end Workbench.Grounded

theorem Workbench.exists_grounded_run (calls : List Call) : ∃ R, (Workbench.start.run calls).Grounded R :=
  Workbench.Grounded.start.run calls

/-! ## other invariants -/

namespace Workbench

variable {R : Roster} {s : Workbench}

/-- What a call makes of things with a property has that property; so everything that is made has it. -/
theorem Grounded.forall_made_run {P : Made → Prop} (h : s.Grounded R) (hs : ∀ m, some m ∈ s.made → P m)
    (hcall : ∀ {R : Roster} {s : Workbench} {c : Call} {m : Made}, s.Grounded R →
      (∀ m, some m ∈ s.made → P m) → c.run s = some m → P m) (calls : List Call) :
    ∀ m, some m ∈ (s.run calls).made → P m := by
  induction calls generalizing R s with
  | nil => exact hs
  | cons c calls ih =>
    obtain ⟨S, hS⟩ := h.step c
    refine ih hS fun m hm => ?_
    rcases List.mem_append.mp hm with hm | hm
    · exact hs m hm
    · exact hcall h hs (List.mem_singleton.mp hm).symm

end Workbench

/-! ## requests -/

section

variable {R : Roster} {s : Workbench} (h : s.Grounded R)

include h

theorem Workbench.Grounded.row? {arguments : List (String × Argument)} {row : Row}
    (hrow : s.row? arguments = some row) : row.Grounded R := by
  obtain ⟨operands, ho, rfl⟩ := Option.map_eq_some_iff.mp hrow
  exact fun entry hentry => h.named? ho entry (OrderedMap.mem_entries_ofList hentry)

theorem Request.command?_grounded {request : Request} {c : Command} (hc : request.command? s = some c) :
    c.Grounded R := by
  cases request with
  | select relation rename =>
    obtain ⟨r, hr, rfl⟩ := Option.map_eq_some_iff.mp hc
    exact h.relation? hr
  | create relation =>
    obtain ⟨r, hr, rfl⟩ := Option.map_eq_some_iff.mp hc
    exact h.relation? hr
  | drop relation =>
    obtain ⟨r, hr, rfl⟩ := Option.map_eq_some_iff.mp hc
    exact h.relation? hr
  | insert relation rows =>
    obtain ⟨r, hr, hc⟩ := Option.bind_eq_some_iff.mp hc
    obtain ⟨rows', hrows, hc⟩ := Option.bind_eq_some_iff.mp hc
    cases hc
    exact ⟨h.relation? hr, forall_mem_of_mapM (fun arguments row hrow => h.row? hrow) hrows⟩
  | update relation row condition =>
    obtain ⟨r, hr, hc⟩ := Option.bind_eq_some_iff.mp hc
    obtain ⟨row', hrow, hc⟩ := Option.bind_eq_some_iff.mp hc
    obtain ⟨condition', hcondition, hc⟩ := Option.bind_eq_some_iff.mp hc
    cases hc
    exact ⟨h.relation? hr, h.row? hrow, h.condition? hcondition⟩
  | remove relation condition =>
    obtain ⟨r, hr, hc⟩ := Option.bind_eq_some_iff.mp hc
    obtain ⟨condition', hcondition, hc⟩ := Option.bind_eq_some_iff.mp hc
    cases hc
    exact ⟨h.relation? hr, h.condition? hcondition⟩

end

end TableAlgebra
