import TableAlgebra.Proofs.Program.Grounded

/-!
# Filling a program

A program whose strings are names of places is filled by putting in a string for each name.  Two programs
that differ only in their strings are two fillings of one program, with a name of its own for each place.
What a filled program makes is what the program makes, filled.

* `Program.fill`             the strings among the host values of a program put in for their names;
* `Program.Keeps`            the strings put in change no default of a column over an enumeration;
* `Call.run_fill`            a filled call makes what the call makes, filled;
* `Program.command?_fill`    and so the commands of a filled program are the commands of the program, filled.
-/

namespace TableAlgebra

/-! ## programs -/

section

variable (σ : String → String)

def Argument.fill : Argument → Argument
  | made number => made number
  | value v => value (v.fill σ)

def fillNamed (arguments : List (String × Argument)) : List (String × Argument) :=
  arguments.map fun (key, argument) => (key, argument.fill σ)

/-- a call with the strings of its operands and defaults replaced; names, labels and the free-form
options of tables are no values of columns and stay -/
def Call.fill : Call → Call
  | enumeration labels => enumeration labels
  | domain name base defaults => domain name base (defaults.fill σ)
  | label number text => label number text
  | declare name type own => declare name type (own.fill σ)
  | table name attributes options => table name attributes options
  | column relation key => column relation key
  | apply op left right => apply op (left.fill σ) (right.fill σ)
  | member operand relation => member (operand.fill σ) relation
  | count operand => count (operand.fill σ)
  | avg operand => avg (operand.fill σ)
  | project relation columns => project relation (fillNamed σ columns)
  | restrict relation predicate => restrict relation (predicate.map (Argument.fill σ))
  | join left right on => join left right (on.fill σ)
  | group relation key => group relation (key.fill σ)
  | order relation key => order relation (key.fill σ)

def Request.fill : Request → Request
  | select relation rename => select relation rename
  | create relation => create relation
  | drop relation => drop relation
  | insert relation rows => insert relation (rows.map (fillNamed σ))
  | update relation row condition =>
    update relation (fillNamed σ row) (condition.map (Argument.fill σ))
  | remove relation condition => remove relation (condition.map (Argument.fill σ))

def Program.fill (p : Program) : Program := ⟨p.calls.map (Call.fill σ), p.request.fill σ⟩

/-- What is left to the program is kept from the filling: `σ` does not change the default of a column
over an enumeration, which is a label. -/
def Call.Keeps (s : Workbench) : Call → Prop
  | declare _ type own => ∀ t, s.type? type = some t → t.underlying.kind = .enum →
    ∀ v, (own.inherit t.defaults).default = some v → v.fill σ = v
  | _ => True

/-- no call among those that follow changes the default of a column over an enumeration -/
def Workbench.Keeps : Workbench → List Call → Prop
  | _, [] => True
  | s, c :: cs => c.Keeps σ s ∧ (s.step c).Keeps cs

/-- the filling changes no default of a column over an enumeration -/
def Program.Keeps (p : Program) : Prop := Workbench.start.Keeps σ p.calls

end

/-! ## workbenches -/

def Made.fill (σ : String → String) : Made → Made
  | type t => type (t.fill σ)
  | label v => label (v.fill σ)
  | attr a => attr (a.fill σ)
  | expr e => expr (e.fill σ)
  | relation r => relation (r.fill σ)

def Workbench.fill (σ : String → String) (s : Workbench) : Workbench :=
  ⟨s.next, s.made.map (Option.map (Made.fill σ))⟩

namespace Workbench

variable {σ : String → String} (s : Workbench)

theorem find?_fill (number : Nat) : (s.fill σ).find? number = (s.find? number).map (Made.fill σ) := by
  unfold find? fill
  rw [List.getElem?_map]
  cases s.made[number]? <;> rfl

theorem look_fill {α β : Type} {get : Made → Option α} {get' : Made → Option β} {f : α → β}
    (h : ∀ m, get' (m.fill σ) = (get m).map f) (number : Nat) :
    ((s.fill σ).find? number).bind get' = ((s.find? number).bind get).map f := by
  rw [find?_fill]
  cases s.find? number with
  | none => rfl
  | some m => exact h m

theorem type?_fill (number : Nat) : (s.fill σ).type? number = (s.type? number).map (DataType.fill σ) := by
  refine s.look_fill (fun m => ?_) number
  cases m <;> rfl

theorem domain?_fill (number : Nat) : (s.fill σ).domain? number = (s.domain? number).map (Domain.fill σ) := by
  refine s.look_fill (fun m => ?_) number
  cases m with
  | type t => cases t <;> rfl
  | _ => rfl

theorem attribute?_fill (number : Nat) :
    (s.fill σ).attribute? number = (s.attribute? number).map (Attribute.fill σ) := by
  refine s.look_fill (fun m => ?_) number
  cases m <;> rfl

theorem relation?_fill (number : Nat) :
    (s.fill σ).relation? number = (s.relation? number).map (Relation.fill σ) := by
  refine s.look_fill (fun m => ?_) number
  cases m <;> rfl

theorem operand?_fill (argument : Argument) :
    (s.fill σ).operand? (argument.fill σ) = (s.operand? argument).map (Operand.fill σ) := by
  cases argument with
  | value v => rfl
  | made number =>
    refine s.look_fill (fun m => ?_) number
    cases m with
    | attr a => simp [Made.fill, Made.operand?, Operand.fill, Expr.fill]
    | _ => rfl

theorem expr?_fill (argument : Argument) :
    (s.fill σ).expr? (argument.fill σ) = (s.expr? argument).map (Expr.fill σ) := by
  unfold expr?
  rw [operand?_fill]
  cases s.operand? argument with
  | none => rfl
  | some o =>
    show ((o.fill σ).toExpr).toOption = o.toExpr.toOption.map (Expr.fill σ)
    rw [Operand.toExpr_fill, toOption_map]

end Workbench

theorem mapM_map_option {α β γ : Type} {f : α → Option β} {f' : α → Option γ} {g : β → γ}
    (h : ∀ a, f' a = (f a).map g) (as : List α) : as.mapM f' = (as.mapM f).map (List.map g) := by
  induction as with
  | nil => rfl
  | cons a as ih =>
    rw [List.mapM_cons, List.mapM_cons, h, ih]
    cases f a with
    | none => rfl
    | some b => cases as.mapM f <;> rfl

namespace Workbench

variable {σ : String → String} (s : Workbench)

theorem named?_fill (arguments : List (String × Argument)) :
    (s.fill σ).named? (fillNamed σ arguments)
      = (s.named? arguments).map (List.map fun n => (n.1, n.2.fill σ)) := by
  unfold named? fillNamed
  rw [List.mapM_map]
  refine mapM_map_option (fun (key, argument) => ?_) arguments
  show ((s.fill σ).operand? (argument.fill σ)).map (key, ·) = ((s.operand? argument).map (key, ·)).map _
  rw [operand?_fill, Option.map_map, Option.map_map]
  rfl

theorem condition?_fill (argument : Option Argument) :
    (s.fill σ).condition? (argument.map (Argument.fill σ))
      = (s.condition? argument).map (Option.map (Expr.fill σ)) := by
  cases argument with
  | none => rfl
  | some argument =>
    show ((s.fill σ).expr? (argument.fill σ)).map some = ((s.expr? argument).map some).map _
    rw [expr?_fill, Option.map_map, Option.map_map]
    rfl

end Workbench

/-! ## calls -/

theorem bind_map_option {α β γ δ : Type} {x : Option α} {x' : Option β} {f : α → β} {k : α → Option γ}
    {k' : β → Option δ} {g : γ → δ} (hx : x' = x.map f)
    (hk : ∀ a, x = some a → k' (f a) = (k a).map g) : x' >>= k' = (x >>= k).map g := by
  subst hx
  cases x with
  | none => rfl
  | some a => exact hk a rfl

theorem Relation.attr_fill {σ : String → String} (r : Relation) (key : String) :
    ((r.fill σ).attr key).toOption = (r.attr key).toOption.map (Expr.fill σ) := by
  unfold attr
  rw [column?_fill]
  cases r.column? key <;> rfl

section

variable {σ : String → String} {R : Roster} {s : Workbench} (h : s.Grounded R)

include h

theorem Workbench.Grounded.apply_fill {op : BinaryOp} {l : Expr} (hl : l.Grounded R) {o : Operand}
    (ho : o.Grounded R) :
    ((l.fill σ).apply op (o.fill σ)).toOption = (l.apply op o).toOption.map (Expr.fill σ) := by
  unfold Expr.apply
  rw [toOption_bind, toOption_bind, Operand.toExpr_fill, toOption_map]
  cases he : o.toExpr with
  | error e => rfl
  | ok r => exact Expr.combine_fill h.unique op hl.toIn (ho r he).toIn

theorem Relation.restrict_fill {r : Relation} (hr : r.Grounded R) {condition : Option Expr}
    (hc : ∀ e ∈ condition, e.Grounded R) :
    ((r.fill σ).restrict (condition.map (Expr.fill σ))).toOption
      = (r.restrict condition).toOption.map (Relation.fill σ) := by
  cases condition with
  | none => rfl
  | some e => exact filter_fill h.unique hr.within (hc e rfl).toIn

/-- **A filled call makes what the call makes**, filled. -/
theorem Call.run_fill {c : Call} (hkeeps : c.Keeps σ s) :
    (c.fill σ).run (s.fill σ) = (c.run s).map (Made.fill σ) := by
  cases c with
  | enumeration labels =>
    show ((BaseType.enumeration labels).toOption.map _) = Option.map _ ((BaseType.enumeration labels).toOption.map _)
    rw [Option.map_map]
    rfl
  | domain name base defaults =>
    refine bind_map_option (s.type?_fill base) fun t _ => ?_
    exact bind_map_option (Domain.declare_fill s.next name t defaults) fun d _ => rfl
  | label number text =>
    refine bind_map_option (s.domain?_fill number) fun d _ => ?_
    exact bind_map_option (d.value_fill text) fun v _ => rfl
  | declare name type own =>
    refine bind_map_option (s.type?_fill type) fun t ht => ?_
    exact bind_map_option (Attribute.declare_fill s.next name (hkeeps t ht)) fun a _ => rfl
  | table name attributes options =>
    refine bind_map_option (mapM_map_option s.attribute?_fill attributes) fun as _ => ?_
    exact bind_map_option (Relation.table_fill s.next name as options) fun t _ => rfl
  | column relation key =>
    refine bind_map_option (s.relation?_fill relation) fun r _ => ?_
    exact bind_map_option (Relation.attr_fill r key) fun e _ => rfl
  | apply op left right =>
    refine bind_map_option (s.expr?_fill left) fun l hl => ?_
    refine bind_map_option (s.operand?_fill right) fun o ho => ?_
    exact bind_map_option (h.apply_fill (h.expr? hl) (h.operand? ho)) fun e _ => rfl
  | member operand relation =>
    refine bind_map_option (s.expr?_fill operand) fun e he => ?_
    refine bind_map_option (s.relation?_fill relation) fun r hr => ?_
    exact bind_map_option (Expr.isIn_fill h.unique (h.expr? he).toIn (h.relation? hr).within) fun x _ => rfl
  | count operand =>
    refine bind_map_option (s.expr?_fill operand) fun e _ => ?_
    show some (Made.expr (e.fill σ).count) = some (.expr (e.count.fill σ))
    rw [Expr.count, Expr.count, Expr.fill]
    rfl
  | avg operand =>
    refine bind_map_option (s.expr?_fill operand) fun e he => ?_
    exact bind_map_option (Expr.avg_fill h.unique (h.expr? he).toIn) fun x _ => rfl
  | project relation columns =>
    refine bind_map_option (s.relation?_fill relation) fun r hr => ?_
    refine bind_map_option (s.named?_fill columns) fun operands ho => ?_
    refine bind_map_option (Relation.project_fill h.unique (h.relation? hr).within ?_) fun p _ => rfl
    exact fun n hn e he => (h.named? ho n hn e he).toIn
  | restrict relation predicate =>
    refine bind_map_option (s.relation?_fill relation) fun r hr => ?_
    refine bind_map_option (s.condition?_fill predicate) fun condition hc => ?_
    exact bind_map_option (Relation.restrict_fill h (h.relation? hr) (h.condition? hc)) fun f _ => rfl
  | join left right on =>
    refine bind_map_option (s.relation?_fill left) fun r hr => ?_
    refine bind_map_option (s.relation?_fill right) fun other hother => ?_
    refine bind_map_option (s.expr?_fill on) fun e he => ?_
    exact bind_map_option (Relation.join_fill h.unique (h.relation? hr).within (h.relation? hother).within
      (h.expr? he).toIn) fun j _ => rfl
  | group relation key =>
    refine bind_map_option (s.relation?_fill relation) fun r hr => ?_
    refine bind_map_option (s.expr?_fill key) fun e he => ?_
    exact bind_map_option (Relation.group_fill h.unique (h.relation? hr).within (h.expr? he).toIn)
      fun g _ => rfl
  | order relation key =>
    refine bind_map_option (s.relation?_fill relation) fun r hr => ?_
    refine bind_map_option (s.expr?_fill key) fun e he => ?_
    exact bind_map_option (Relation.order_fill h.unique (h.relation? hr).within (h.expr? he).toIn)
      fun o _ => rfl

end

/-! ## runs and requests -/

namespace Workbench

variable {σ : String → String}

theorem start_fill : start.fill σ = start := rfl

theorem step_fill {R : Roster} {s : Workbench} (h : s.Grounded R) {c : Call} (hkeeps : c.Keeps σ s) :
    (s.fill σ).step (c.fill σ) = (s.step c).fill σ := by
  unfold step
  rw [Call.run_fill h hkeeps]
  show Workbench.mk _ _ = Workbench.mk _ _
  rw [List.map_append]
  rfl

/-- what filled calls make is what the calls make, filled -/
theorem run_fill {R : Roster} {s : Workbench} (h : s.Grounded R) {calls : List Call}
    (hkeeps : s.Keeps σ calls) : (s.fill σ).run (calls.map (Call.fill σ)) = (s.run calls).fill σ := by
  induction calls generalizing R s with
  | nil => rfl
  | cons c calls ih =>
    obtain ⟨S, hS⟩ := h.step c
    show ((s.fill σ).step (c.fill σ)).run (calls.map (Call.fill σ)) = _
    rw [step_fill h hkeeps.1]
    exact ih hS hkeeps.2

end Workbench

section

variable {σ : String → String} (s : Workbench)

theorem Workbench.row?_fill (arguments : List (String × Argument)) :
    (s.fill σ).row? (fillNamed σ arguments) = (s.row? arguments).map (Row.fill σ) := by
  unfold row?
  rw [named?_fill, Option.map_map, Option.map_map]
  exact congrFun (congrArg Option.map (funext (OrderedMap.ofList_map (Operand.fill σ)))) _

theorem Request.command?_fill (request : Request) :
    (request.fill σ).command? (s.fill σ) = (request.command? s).map (Command.fill σ) := by
  have habout : ∀ (number : Nat) (about : Relation → Command),
      (∀ r, about (r.fill σ) = (about r).fill σ) →
        ((s.fill σ).relation? number).map about = ((s.relation? number).map about).map (Command.fill σ) := by
    intro number about habout
    rw [s.relation?_fill, Option.map_map, Option.map_map]
    exact congrFun (congrArg Option.map (funext habout)) _
  cases request with
  | select relation rename => exact habout relation (Command.select · rename) fun r => rfl
  | create relation => exact habout relation Command.create fun r => rfl
  | drop relation => exact habout relation Command.drop fun r => rfl
  | insert relation rows =>
    refine bind_map_option (s.relation?_fill relation) fun r _ => ?_
    have hrows : (rows.map (fillNamed σ)).mapM (s.fill σ).row? = (rows.mapM s.row?).map (List.map (Row.fill σ)) := by
      rw [List.mapM_map]
      exact mapM_map_option s.row?_fill rows
    exact bind_map_option hrows fun rows' _ => rfl
  | update relation row condition =>
    refine bind_map_option (s.relation?_fill relation) fun r _ => ?_
    refine bind_map_option (s.row?_fill row) fun row' _ => ?_
    exact bind_map_option (s.condition?_fill condition) fun condition' _ => rfl
  | remove relation condition =>
    refine bind_map_option (s.relation?_fill relation) fun r _ => ?_
    exact bind_map_option (s.condition?_fill condition) fun condition' _ => rfl

end

theorem Program.command?_fill {σ : String → String} {p : Program} (hkeeps : p.Keeps σ) :
    (p.fill σ).command? = p.command?.map (Command.fill σ) := by
  have hrun := Workbench.run_fill Workbench.Grounded.start hkeeps
  unfold command? fill
  rw [← Workbench.start_fill (σ := σ), hrun, Request.command?_fill]
  rfl

end TableAlgebra
