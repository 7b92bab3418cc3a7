import TableAlgebra.Proofs.Program.Grounded
import TableAlgebra.Proofs.Relation.Typing

/-!
# Types of programs

Whatever a program makes is deeply typed: this is an invariant of the workbench, carried from call to call.  And
nothing typed is refused: once the leaves of a typed expression are at hand, the calls for its nodes, from the
leaves upwards, make the expression.

* `Made.Typed`, `Workbench.Typed`   expressions and relations that were made are deeply typed;
* `Workbench.Typed.run`             that holds after any calls;
* `Workbench.Provides`              the leaves of an expression are at hand;
* `Workbench.structural_makes`      then further calls make it if it is typed;
* `Workbench.typing`                both directions, for all programs.
-/

namespace TableAlgebra

/-! ## nothing else is made -/

/-- expressions and relations are deeply typed -/
def Made.Typed : Made → Prop
  | expr e => e.DeepTyped
  | relation r => r.DeepTyped
  | _ => True

def Workbench.Typed (s : Workbench) : Prop := ∀ m, some m ∈ s.made → m.Typed

namespace Workbench.Typed

variable {R : Roster} {s : Workbench}

theorem start : Workbench.start.Typed := by
  intro m hm
  simp only [Workbench.start, List.mem_cons, Option.some.injEq, List.not_mem_nil, or_false] at hm
  rcases hm with rfl | rfl | rfl | rfl <;> trivial

theorem relation? (h : s.Typed) {number : Nat} {r : Relation} (hr : s.relation? number = some r) :
    r.DeepTyped := h _ (mem_made_of_relation? hr)

theorem operand? (h : s.Typed) {argument : Argument} {o : Operand} (ho : s.operand? argument = some o)
    {e : Expr} (he : o.toExpr = .ok e) : e.DeepTyped :=
  forall_operand? .literal (fun a _ => .attr a) (fun _ he => h _ he) ho he

theorem expr? (h : s.Typed) {argument : Argument} {e : Expr} (he : s.expr? argument = some e) : e.DeepTyped := by
  obtain ⟨o, ho, hoe⟩ := Option.bind_eq_some_iff.mp he
  exact h.operand? ho (toOption_eq_some.mp hoe)

theorem run_call (h : s.Typed) (hbench : s.Grounded R) {c : Call} {m : Made} (hm : c.run s = some m) :
    m.Typed := by
  cases Call.yields_of_run hm with
  | table attributes made =>
    exact .table (forall_mem_of_mapM (fun _ a ha => (hbench.attribute? ha).2) attributes) made
  | column relation made => exact (h.relation? relation).expr (Relation.mem_exprs_of_attr made)
  | apply left right wrapped made => exact (h.expr? left).combine (h.operand? right wrapped) made
  | member tested relation made => exact (h.expr? tested).isIn (h.relation? relation) made
  | count counted => exact (h.expr? counted).count
  | avg averaged made => exact (h.expr? averaged).avg made
  | project relation given made => exact (h.relation? relation).step (forall_exprs_project h.operand? given) made
  | restrict relation given made => exact (h.relation? relation).step (forall_exprs_restrict h.operand? given) made
  | join left right given made => exact (h.relation? left).join (h.relation? right) (h.expr? given) made
  | group relation given made =>
    refine (h.relation? relation).step (fun e he => ?_) made
    exact List.mem_singleton.mp he ▸ h.expr? given
  | order relation given made =>
    refine (h.relation? relation).step (fun e he => ?_) made
    exact List.mem_singleton.mp he ▸ h.expr? given
  | _ => trivial

theorem run (calls : List Call) : (Workbench.start.run calls).Typed :=
  Grounded.start.forall_made_run start (fun hbench h hm => run_call h hbench hm) calls

end Workbench.Typed

/-! ## nothing typed is refused -/

namespace Workbench

variable {s : Workbench}

theorem run_append (calls more : List Call) : s.run (calls ++ more) = (s.run calls).run more := List.foldl_append

theorem find?_run {number : Nat} {m : Made} (h : s.find? number = some m) (calls : List Call) :
    (s.run calls).find? number = some m := by
  induction calls generalizing s with
  | nil => exact h
  | cons c calls ih =>
    refine ih ?_
    unfold find? at h ⊢
    rw [Option.join_eq_some_iff] at h ⊢
    show (s.made ++ [c.run s])[number]? = some (some m)
    rw [List.getElem?_append_left (List.getElem?_eq_some_iff.mp h).1, h]

theorem relation?_run {number : Nat} {r : Relation} (h : s.relation? number = some r) (calls : List Call) :
    (s.run calls).relation? number = some r := by
  obtain ⟨m, hm, hr⟩ := Option.bind_eq_some_iff.mp h
  exact Option.bind_eq_some_iff.mpr ⟨m, find?_run hm calls, hr⟩

theorem expr?_run {argument : Argument} {e : Expr} (h : s.expr? argument = some e) (calls : List Call) :
    (s.run calls).expr? argument = some e := by
  cases argument with
  | value v => exact h
  | made number =>
    obtain ⟨o, ho, he⟩ := Option.bind_eq_some_iff.mp h
    obtain ⟨m, hm, hmo⟩ := Option.bind_eq_some_iff.mp ho
    exact Option.bind_eq_some_iff.mpr ⟨o, Option.bind_eq_some_iff.mpr ⟨m, find?_run hm calls, hmo⟩, he⟩

theorem expr?_step {c : Call} {e : Expr} (h : c.run s = some (.expr e)) :
    (s.step c).expr? (.made s.made.length) = some e := by
  have hfind : (s.step c).find? s.made.length = some (.expr e) := by
    unfold find?
    show ((s.made ++ [c.run s])[s.made.length]?).join = _
    rw [List.getElem?_concat_length, h]
    rfl
  show ((s.step c).find? s.made.length).bind Made.operand? >>= (fun o => o.toExpr.toOption) = some e
  rw [hfind]
  rfl

/-- the attributes and literals of an expression are at hand as arguments, and the relations of its tests -/
def Provides (s : Workbench) (e : Expr) : Prop :=
  e.All (fun a => ∃ argument, s.expr? argument = some (.attr a))
    (fun l => ∃ argument, s.expr? argument = some (.literal l)) fun r => ∃ number, s.relation? number = some r

theorem Provides.run {e : Expr} (h : s.Provides e) (calls : List Call) : (s.run calls).Provides e where
  leaf a ha := (h.leaf a ha).imp fun _ hx => expr?_run hx calls
  literal l hl := (h.literal l hl).imp fun _ hx => expr?_run hx calls
  subselect r hr := (h.subselect r hr).imp fun _ hx => relation?_run hx calls

/-- a workbench with further calls makes the expression -/
def Makes (s : Workbench) (e : Expr) : Prop := ∃ calls argument, (s.run calls).expr? argument = some e

theorem Makes.of_call (calls : List Call) (c : Call) {e : Expr} (h : c.run (s.run calls) = some (.expr e)) :
    s.Makes e := by
  refine ⟨calls ++ [c], .made (s.run calls).made.length, ?_⟩
  rw [run_append]
  exact expr?_step h

/-- further calls make a typed expression of its leaves, by induction on the expression: the operands first, in
turn, and then the call for the node, which finds them where they were made -/
theorem structural_makes : Structural
    (fun e => ∀ s : Workbench, s.Provides e → e.Typed → s.Makes e) (fun _ => True) where
  literal l s hs _ := by
    obtain ⟨argument, h⟩ := hs.literal l (List.mem_singleton_self l)
    exact ⟨[], argument, h⟩
  attr a s hs _ := by
    obtain ⟨argument, h⟩ := hs.leaf a (List.mem_singleton_self a)
    exact ⟨[], argument, h⟩
  binary op t l r ihl ihr s hs ht := by
    obtain ⟨hruled, hl, hr⟩ := Expr.typed_binary.mp ht
    obtain ⟨calls, left, hleft⟩ := ihl s hs.left hl
    obtain ⟨more, right, hright⟩ := ihr (s.run calls) (Provides.run hs.right calls) hr
    -- the left operand stays where it was made while the right one is made
    replace hleft := expr?_run hleft more
    obtain ⟨o, ho, hor⟩ := Option.bind_eq_some_iff.mp hright
    have happly : l.apply op o = .ok (.binary op t l r) :=
      bind_eq_ok.mpr ⟨r, toOption_eq_some.mp hor, Expr.combine_iff_ruled.mpr hruled⟩
    refine .of_call (calls ++ more) (.apply op left right) ?_
    rw [run_append]
    simp [Call.run, hleft, ho, happly, Except.toOption]
  aggregate f t e ih s hs ht := by
    obtain ⟨hruled, he⟩ := Expr.typed_aggregate.mp ht
    obtain ⟨calls, operand, hoperand⟩ := ih s hs.operand he
    cases f with
    | count =>
      have hcount := Expr.count_iff_ruled.mpr hruled
      refine .of_call calls (.count operand) ?_
      simp [Call.run, hoperand, hcount]
    | avg =>
      have havg := Expr.avg_iff_ruled.mpr hruled
      refine .of_call calls (.avg operand) ?_
      simp [Call.run, hoperand, havg, Except.toOption]
  member t e r ih _ s hs ht := by
    obtain ⟨hruled, he⟩ := Expr.typed_member.mp ht
    obtain ⟨calls, operand, hoperand⟩ := ih s hs.tested he
    obtain ⟨number, hnumber⟩ := hs.relation
    replace hnumber := relation?_run hnumber calls
    have hmember := Expr.isIn_iff_ruled.mpr hruled
    refine .of_call calls (.member operand number) ?_
    simp [Call.run, hoperand, hnumber, hmember, Except.toOption]
  relation _ _ := trivial

/-- **The types kept in nodes are right, and nothing typed is refused.**  In everything that a program can make,
and in the relations of its membership tests at any depth, every node meets its rule, relations give out columns
under distinct identifiers, and restrictions are truth values.  Conversely an expression whose leaves are at hand,
its attributes, its literals and the relations of its tests, can be made if and only if every node of it meets its
rule. -/
theorem typing (calls : List Call) :
    (∀ argument e, (start.run calls).expr? argument = some e → e.DeepTyped) ∧
      (∀ number r, (start.run calls).relation? number = some r → r.DeepTyped) ∧
      ∀ e, (start.run calls).Provides e → ((start.run calls).Makes e ↔ e.Typed) := by
  refine ⟨fun argument e h => (Typed.run calls).expr? h, fun number r h => (Typed.run calls).relation? h,
    fun e hprovides => ⟨?_, structural_makes.of_expr e _ hprovides⟩⟩
  rintro ⟨more, argument, h⟩
  rw [← run_append] at h
  exact ((Typed.run (calls ++ more)).expr? h).typed

end Workbench

end TableAlgebra
