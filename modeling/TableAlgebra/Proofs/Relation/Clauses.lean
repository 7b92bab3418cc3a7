import TableAlgebra.Proofs.Relation.Sources

/-!
# The clauses of a query

Restrictions, groups and orders grow by one operator each, at their end.  Such an operator looks at the columns
and at its own argument, never at a clause, and it leaves the columns as they are.  So in a sequence of them
each is accepted or refused as it would be by the relation they start from, and operators on different clauses
may change places.

* `ClauseKind`, `Relation.clause`   the three clauses, and what a relation holds in one of them;
* `Operation.clause_of_run`         what an operation adds to a clause;
* `ClauseCall`, `Relation.runAll`   operators that add to a clause, one after the other;
* `Relation.runAll_eq_ok`           when such a sequence succeeds, and what it makes;
* `Relation.runAll_shuffles`        only the order within each clause matters.
-/

namespace TableAlgebra

/-- the clauses of a query that grow operator by operator -/
inductive ClauseKind where
  | restriction
  | group
  | order
  deriving DecidableEq

/-- the expressions of a relation in a clause, in order -/
def Relation.clause (r : Relation) : ClauseKind → List Expr
  | .restriction => r.restrictions
  | .group => r.groups
  | .order => r.orders

/-- what an operation is given for a clause -/
def Operation.given : Operation → ClauseKind → List Expr
  | restrict predicate, .restriction => predicate.toList
  | group key, .group => [key]
  | order key, .order => [key]
  | _, _ => []

/-- an operation adds to each clause what it is given for it, at the end -/
theorem Operation.clause_of_run {op : Operation} {r s : Relation} (h : op.run r = .ok s) (c : ClauseKind) :
    s.clause c = r.clause c ++ op.given c := by
  cases op with
  | project columns =>
    obtain ⟨cs, -, -, -, rfl⟩ := Relation.project_eq_ok.mp h
    cases c <;> exact (List.append_nil _).symm
  | restrict predicate =>
    cases predicate with
    | none =>
      cases Except.ok.inj h
      cases c <;> exact (List.append_nil _).symm
    | some p =>
      obtain ⟨-, -, rfl⟩ := Relation.filter_eq_ok.mp h
      cases c with
      | restriction => rfl
      | _ => exact (List.append_nil _).symm
  | group key =>
    obtain ⟨-, rfl⟩ := Relation.group_eq_ok.mp h
    cases c with
    | group => rfl
    | _ => exact (List.append_nil _).symm
  | order key =>
    obtain ⟨-, rfl⟩ := Relation.order_eq_ok.mp h
    cases c with
    | order => rfl
    | _ => exact (List.append_nil _).symm

/-! ## calls that add to a clause -/

/-- a call of an operator that adds to a clause, with its argument -/
inductive ClauseCall where
  | restrict (predicate : Option Expr)
  | group (key : Expr)
  | order (key : Expr)

namespace ClauseCall

def operation : ClauseCall → Operation
  | restrict predicate => .restrict predicate
  | group key => .group key
  | order key => .order key

def clause : ClauseCall → ClauseKind
  | restrict _ => .restriction
  | group _ => .group
  | order _ => .order

/-- what the call adds; a restriction by nothing adds nothing -/
def expr? : ClauseCall → Option Expr
  | restrict predicate => predicate
  | group key => some key
  | order key => some key

/-- what the call adds is in scope of the columns and, as a restriction, a truth value -/
def Fits (columns : List Column) (call : ClauseCall) : Prop :=
  ∀ e ∈ call.expr?, e.inScope columns = true ∧ (call.clause = .restriction → e.type.isBoolean = true)

theorem fits_iff {columns : List Column} {call : ClauseCall} {e : Expr} (h : call.expr? = some e) :
    call.Fits columns ↔
      e.inScope columns = true ∧ (call.clause = .restriction → e.type.isBoolean = true) := by
  simp [Fits, h]

theorem given_operation (call : ClauseCall) (c : ClauseKind) :
    call.operation.given c = if call.clause = c then call.expr?.toList else [] := by
  cases call <;> cases c <;> rfl

end ClauseCall

namespace Relation

/-- the relation with what the call adds; if that is anything, it is no table any more -/
def extend (r : Relation) (call : ClauseCall) : Relation where
  kind := if call.expr?.isSome then .derived else r.kind
  sources := r.sources
  columns := r.columns
  restrictions := r.restrictions ++ call.operation.given .restriction
  groups := r.groups ++ call.operation.given .group
  orders := r.orders ++ call.operation.given .order

theorem run_eq_ok {r s : Relation} {call : ClauseCall} :
    call.operation.run r = .ok s ↔ call.Fits r.columns ∧ r.extend call = s := by
  cases call with
  | restrict predicate =>
    cases predicate with
    | none =>
      have hextend : r.extend (.restrict none) = r := by
        cases r
        simp [extend, ClauseCall.expr?, ClauseCall.operation, Operation.given]
      have hfits : (ClauseCall.restrict none).Fits r.columns := fun _ he => nomatch he
      rw [hextend]
      exact ⟨fun h => ⟨hfits, Except.ok.inj h⟩, fun h => congrArg Except.ok h.2⟩
    | some p =>
      have hextend : r.extend (.restrict (some p))
          = { r with kind := .derived, restrictions := r.restrictions ++ [p] } := by
        simp [extend, ClauseCall.expr?, ClauseCall.operation, Operation.given]
      rw [hextend, ClauseCall.fits_iff rfl, and_assoc]
      refine filter_eq_ok.trans (and_congr_right fun _ => and_congr_left' ?_)
      exact ⟨fun hb _ => hb, fun hb => hb rfl⟩
  | group key =>
    have hextend : r.extend (.group key) = { r with kind := .derived, groups := r.groups ++ [key] } := by
      simp [extend, ClauseCall.expr?, ClauseCall.operation, Operation.given]
    rw [hextend, ClauseCall.fits_iff rfl]
    exact group_eq_ok.trans (and_congr_left' (and_iff_left nofun).symm)
  | order key =>
    have hextend : r.extend (.order key) = { r with kind := .derived, orders := r.orders ++ [key] } := by
      simp [extend, ClauseCall.expr?, ClauseCall.operation, Operation.given]
    rw [hextend, ClauseCall.fits_iff rfl]
    exact order_eq_ok.trans (and_congr_left' (and_iff_left nofun).symm)

def runAll (r : Relation) (calls : List ClauseCall) : Except AlgebraError Relation :=
  calls.foldlM (fun s call => call.operation.run s) r

/-- what the calls add to a clause -/
def added (calls : List ClauseCall) (c : ClauseKind) : List Expr := calls.flatMap (·.operation.given c)

/-- the calls succeed if each of them fits the columns there are at the start -/
theorem runAll_eq_ok {r s : Relation} {calls : List ClauseCall} :
    r.runAll calls = .ok s ↔ (∀ call ∈ calls, call.Fits r.columns) ∧ calls.foldl extend r = s := by
  induction calls generalizing r with
  | nil =>
    show (.ok r : Except AlgebraError Relation) = .ok s ↔ _
    simp
  | cons call calls ih =>
    have hcons : r.runAll (call :: calls) = call.operation.run r >>= fun s => s.runAll calls := by
      rw [runAll, List.foldlM_cons]
      rfl
    rw [hcons, bind_eq_ok, List.forall_mem_cons, List.foldl_cons]
    constructor
    · rintro ⟨t, ht, hs⟩
      obtain ⟨hfits, rfl⟩ := run_eq_ok.mp ht
      obtain ⟨hrest, hs⟩ := ih.mp hs
      exact ⟨⟨hfits, hrest⟩, hs⟩
    · rintro ⟨⟨hfits, hrest⟩, hs⟩
      exact ⟨r.extend call, run_eq_ok.mpr ⟨hfits, rfl⟩, ih.mpr ⟨hrest, hs⟩⟩

section

variable (r : Relation) (calls : List ClauseCall)

theorem sources_foldl_extend : (calls.foldl extend r).sources = r.sources := by
  induction calls generalizing r with
  | nil => rfl
  | cons call calls ih => exact ih (r.extend call)

theorem columns_foldl_extend : (calls.foldl extend r).columns = r.columns := by
  induction calls generalizing r with
  | nil => rfl
  | cons call calls ih => exact ih (r.extend call)

theorem clause_foldl_extend (c : ClauseKind) :
    (calls.foldl extend r).clause c = r.clause c ++ added calls c := by
  induction calls generalizing r with
  | nil => exact (List.append_nil _).symm
  | cons call calls ih =>
    have hcall : (r.extend call).clause c = r.clause c ++ call.operation.given c := by
      cases c <;> rfl
    have hadded : added (call :: calls) c = call.operation.given c ++ added calls c := List.flatMap_cons
    rw [List.foldl_cons, ih, hcall, hadded, List.append_assoc]

theorem kind_foldl_extend : (calls.foldl extend r).kind
    = if calls.any (·.expr?.isSome) then .derived else r.kind := by
  induction calls generalizing r with
  | nil => rfl
  | cons call calls ih =>
    rw [List.foldl_cons, ih, List.any_cons]
    show (if calls.any (·.expr?.isSome) then RelationKind.derived
      else if call.expr?.isSome then .derived else r.kind) = _
    cases call.expr?.isSome <;> cases calls.any (·.expr?.isSome) <;> rfl

end

/-- a relation is what it reads, gives out and holds in its clauses -/
theorem eq_of_clauses {r s : Relation} (hkind : r.kind = s.kind) (hsources : r.sources = s.sources)
    (hcolumns : r.columns = s.columns) (hclause : ∀ c, r.clause c = s.clause c) : r = s := by
  have hrestrictions : r.restrictions = s.restrictions := hclause .restriction
  have hgroups : r.groups = s.groups := hclause .group
  have horders : r.orders = s.orders := hclause .order
  cases r
  cases s
  simp_all

/-! ## shuffles -/

/-- The two sequences have the same calls on each clause, in the same order: one is a permutation of the other
that keeps the order within each clause. -/
def Shuffles (calls calls' : List ClauseCall) : Prop :=
  ∀ c, calls.filter (·.clause = c) = calls'.filter (·.clause = c)

namespace Shuffles

variable {calls calls' : List ClauseCall}

theorem mem_iff (h : Shuffles calls calls') {call : ClauseCall} : call ∈ calls ↔ call ∈ calls' := by
  have hown (cs : List ClauseCall) : call ∈ cs ↔ call ∈ cs.filter (·.clause = call.clause) := by
    simp [List.mem_filter]
  rw [hown calls, hown calls', h call.clause]

theorem added_eq (h : Shuffles calls calls') (c : ClauseKind) : added calls c = added calls' c := by
  have hown (cs : List ClauseCall) :
      added cs c = (cs.filter (·.clause = c)).flatMap (·.expr?.toList) := by
    induction cs with
    | nil => rfl
    | cons call cs ih =>
      rw [added, List.flatMap_cons, ClauseCall.given_operation, List.filter_cons]
      by_cases hc : call.clause = c
      · rw [if_pos hc, if_pos (decide_eq_true hc), List.flatMap_cons, ← ih]
        rfl
      · rw [if_neg hc, if_neg (by simpa using hc), ← ih]
        rfl
  rw [hown calls, hown calls', h c]

theorem foldl_extend (h : Shuffles calls calls') (r : Relation) :
    calls.foldl extend r = calls'.foldl extend r := by
  have hany : calls.any (·.expr?.isSome) = calls'.any (·.expr?.isSome) := by
    rw [Bool.eq_iff_iff, List.any_eq_true, List.any_eq_true]
    exact exists_congr fun call => and_congr_left fun _ => h.mem_iff
  refine eq_of_clauses ?_ ?_ ?_ fun c => ?_
  · rw [kind_foldl_extend, kind_foldl_extend, hany]
  · rw [sources_foldl_extend, sources_foldl_extend]
  · rw [columns_foldl_extend, columns_foldl_extend]
  · rw [clause_foldl_extend, clause_foldl_extend, h.added_eq c]

end Shuffles

/-- the query for what the relation reads and gives out, with the given clauses -/
def queryText (r : Relation) (d : Dialect) (rename : Bool) (clauses : ClauseKind → List Expr) : String :=
  let qualified := decide (1 < r.sources.length)
  "select " ++ ", ".intercalate (columnTexts d qualified rename r.columns)
    ++ " from " ++ ", ".intercalate r.sources
    ++ clauseText " where " " and " (exprTexts d qualified (clauses .restriction))
    ++ clauseText " group by " ", " (exprTexts d qualified (clauses .group))
    ++ clauseText " order by " ", " (exprTexts d qualified (clauses .order))

theorem selectText_eq_queryText {r s : Relation} (hsources : s.sources = r.sources)
    (hcolumns : s.columns = r.columns) (d : Dialect) (rename : Bool) :
    selectText d rename s = r.queryText d rename s.clause := by
  rw [selectText_eq, hsources, hcolumns]
  rfl

/-- **Operators on different clauses commute.**  A sequence of restrictions, groups and orders succeeds exactly
if the relation at the start accepts each of them on its own, and then it adds to each clause what it is given
for it, in the order of the calls; so a shuffle that keeps the order within each clause makes the same relation,
with the same query, or fails as well. -/
theorem runAll_shuffles (r : Relation) {calls calls' : List ClauseCall} (h : Shuffles calls calls') :
    (∀ s, r.runAll calls = .ok s ↔ r.runAll calls' = .ok s) ∧
      ((∃ s, r.runAll calls = .ok s) ↔ ∀ call ∈ calls, ∃ s, call.operation.run r = .ok s) ∧
      ∀ s, r.runAll calls = .ok s →
        s.sources = r.sources ∧ s.columns = r.columns ∧ (∀ c, s.clause c = r.clause c ++ added calls c) ∧
        ∀ d rename, selectText d rename s = r.queryText d rename fun c => r.clause c ++ added calls c := by
  refine ⟨fun s => ?_, ?_, fun s hs => ?_⟩
  · rw [runAll_eq_ok, runAll_eq_ok, h.foldl_extend r]
    exact and_congr_left fun _ => forall_congr' fun call => imp_congr_left h.mem_iff
  · have hcall (call : ClauseCall) : (∃ s, call.operation.run r = .ok s) ↔ call.Fits r.columns := by
      simp only [run_eq_ok, exists_and_left, exists_eq', and_true]
    simp only [runAll_eq_ok, exists_and_left, exists_eq', and_true, hcall]
  · obtain ⟨-, rfl⟩ := runAll_eq_ok.mp hs
    have hsources := sources_foldl_extend r calls
    have hcolumns := columns_foldl_extend r calls
    have hclause := clause_foldl_extend r calls
    refine ⟨hsources, hcolumns, hclause, fun d rename => ?_⟩
    rw [selectText_eq_queryText hsources hcolumns, funext hclause]

section

def memberCalls : List ClauseCall :=
  [.order personBorn, .restrict (some isMember), .group personNumber, .order personNumber]

/-- the same calls, but the restriction first and the group second -/
def memberCallsByClause : List ClauseCall :=
  [.restrict (some isMember), .group personNumber, .order personBorn, .order personNumber]

/-- the hypothesis of `runAll_shuffles` can be met: by calls on all three clauses, which succeed -/
theorem runAll_shuffles_memberCalls :
    Shuffles memberCalls memberCallsByClause ∧ ∃ s, personTable.runAll memberCalls = .ok s ∧
      personTable.runAll memberCallsByClause = .ok s ∧ s.orders = [personBorn, personNumber] ∧
      ∀ d, selectText d true s = "select id, born from persons where id in (select person from members)"
        ++ " group by id order by born, id" := by
  have h : Shuffles memberCalls memberCallsByClause := fun c => by cases c <;> rfl
  obtain ⟨s, hs⟩ : ∃ s, personTable.runAll memberCalls = .ok s := ⟨_, rfl⟩
  obtain ⟨hsame, -, hclauses⟩ := runAll_shuffles personTable h
  obtain ⟨-, -, hclause, htext⟩ := hclauses s hs
  refine ⟨h, s, hs, (hsame s).mp hs, hclause .order, fun d => ?_⟩
  rw [htext]
  rfl

end

end Relation

end TableAlgebra
