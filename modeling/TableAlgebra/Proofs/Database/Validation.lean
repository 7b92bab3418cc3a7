import TableAlgebra.Proofs.Database.Visit

/-!
# What validation sends

A driver is known by its answers: to each history of statements, rows or an error.  Against any such driver,
validation sends one segment for each table of the schema in turn: the statement that drops it if asked to, the
lookup, and the statement that creates it if the lookup gave no rows.  It stops at the first statement that is
refused and at the first definition that drifts, and gives a report only if it comes to the end.

* `PlannedTable.segment`       what is sent for a table, by its status;
* `Completes`, `Stops`         a table whose segment is sent to its end, and one where validation stops;
* `Database.validate_trace`    the statements sent and the result, for every driver.
-/

namespace TableAlgebra

/-! ## segments -/

namespace PlannedTable

/-- what is sent before it is known whether the table is there -/
def approach (p : PlannedTable) (d : Dialect) (drop : Bool) : List Statement :=
  (if drop then [p.drop] else []) ++ [d.definitionLookup p.name]

/-- what is sent for a table that ends up with the status -/
def segment (p : PlannedTable) (d : Dialect) (drop : Bool) : TableStatus → List Statement
  | .created => p.approach d drop ++ [p.create]
  | .verified => p.approach d drop

end PlannedTable

def segments (d : Dialect) (drop : Bool) (done : List (PlannedTable × TableStatus)) : List Statement :=
  done.flatMap fun visit => visit.1.segment d drop visit.2

theorem segments_cons (d : Dialect) (drop : Bool) (p : PlannedTable) (status : TableStatus)
    (done : List (PlannedTable × TableStatus)) :
    segments d drop ((p, status) :: done) = p.segment d drop status ++ segments d drop done := rfl

/-! ## answers -/

section

variable (answer : List Statement → Except String (List ResultRow)) (d : Dialect) (drop : Bool)
  (past : List Statement)

/-- the driver, which was sent `past` before, answers each of the statements with rows -/
def Answered (sent : List Statement) : Prop :=
  ∀ front, front <+: sent → front ≠ [] → ∃ rows, answer (past ++ front) = .ok rows

/-- All of the segment of a table is sent and answered.  It was created exactly if its lookup gave no rows, and
what the lookup gave does not drift. -/
structure Completes (p : PlannedTable) (status : TableStatus) : Prop where
  answered : Answered answer past (p.segment d drop status)
  created_iff : status = .created ↔ answer (past ++ p.approach d drop) = .ok []
  agrees : ∀ found rest, answer (past ++ p.approach d drop) = .ok (found :: rest) → ¬ p.Drifts d found

/-- What is sent for a table where validation stops, and the error it stops with.  A statement that is due was
refused, or the lookup gave a definition that drifts. -/
inductive Stops (p : PlannedTable) : List Statement → DatabaseError → Prop where
  | refused (status : TableStatus) {front : List Statement} {statement : Statement} {message : String}
      (due : status = .created → answer (past ++ p.approach d drop) = .ok [])
      (within : front ++ [statement] <+: p.segment d drop status)
      (answered : Answered answer past front)
      (refused : answer (past ++ (front ++ [statement])) = .error message) :
      Stops p (front ++ [statement]) (.driver message)
  | drifted {found : ResultRow} {rest : List ResultRow}
      (answered : Answered answer past (p.approach d drop))
      (lookup : answer (past ++ p.approach d drop) = .ok (found :: rest))
      (drifts : p.Drifts d found) :
      Stops p (p.approach d drop) (.schemaDrift p.name p.create.sql (Database.foundText "sql" found))

end

section

variable {answer : List Statement → Except String (List ResultRow)} {d : Dialect} {drop : Bool}
  {past : List Statement}

theorem answered_nil : Answered answer past [] :=
  fun _ h hne => absurd (List.prefix_nil.mp h) hne

theorem Answered.concat {sent : List Statement} {statement : Statement} {rows : List ResultRow}
    (h : Answered answer past sent) (hlast : answer (past ++ (sent ++ [statement])) = .ok rows) :
    Answered answer past (sent ++ [statement]) := by
  intro front hfront hne
  rcases List.prefix_concat_iff.mp hfront with rfl | hfront
  · exact ⟨rows, hlast⟩
  · exact h front hfront hne

theorem ofHistory_eq {statement : Statement} {result : Except String (List ResultRow)}
    {s' : List Statement} :
    Driver.ofHistory answer statement past = (result, s') ↔
      answer (past ++ [statement]) = result ∧ s' = past ++ [statement] := by
  unfold Driver.ofHistory
  rw [Prod.mk.injEq]
  exact and_congr_right fun _ => eq_comm

/-! ## a visit -/

variable {p : PlannedTable} {s' : List Statement}

theorem Prepares.sent (d : Dialect) (h : Prepares (Driver.ofHistory answer) p drop past s') :
    ∃ front, p.approach d drop = front ++ [d.definitionLookup p.name] ∧ s' = past ++ front ∧
      Answered answer past front := by
  cases h with
  | kept => exact ⟨[], rfl, (List.append_nil past).symm, answered_nil⟩
  | dropped hdrop =>
    obtain ⟨hanswer, rfl⟩ := ofHistory_eq.mp hdrop
    exact ⟨[p.drop], rfl, rfl, answered_nil.concat hanswer⟩

/-- what is sent from the lookup on, where the table was approached by `front` -/
theorem Settles.sent {front : List Statement} {result : Except DatabaseError TableStatus}
    (happroach : p.approach d drop = front ++ [d.definitionLookup p.name])
    (hfront : Answered answer past front)
    (h : Settles (Driver.ofHistory answer) d p (past ++ front) result s') :
    (∃ status, result = .ok status ∧ s' = past ++ p.segment d drop status ∧
        Completes answer d drop past p status) ∨
      ∃ last e, result = .error e ∧ s' = past ++ last ∧ Stops answer d drop past p last e := by
  -- the lookup leaves the history at the end of the approach
  have hlooked : ∀ {found s₁},
      Driver.ofHistory answer (d.definitionLookup p.name) (past ++ front) = (found, s₁) →
        answer (past ++ p.approach d drop) = found ∧ s₁ = past ++ p.approach d drop := by
    intro found s₁ hlookup
    rw [happroach, ← List.append_assoc]
    exact ofHistory_eq.mp hlookup
  have hreached : ∀ {rows}, answer (past ++ p.approach d drop) = .ok rows →
      Answered answer past (p.approach d drop) := by
    intro rows hrows
    rw [happroach] at hrows ⊢
    exact hfront.concat hrows
  cases h with
  | unseen hlookup =>
    obtain ⟨hanswer, rfl⟩ := hlooked hlookup
    rw [happroach] at hanswer
    refine .inr ⟨_, _, rfl, by rw [happroach], .refused .verified nofun ?_ hfront hanswer⟩
    exact happroach ▸ List.prefix_refl _
  | uncreated hlookup hcreate =>
    obtain ⟨hanswer, rfl⟩ := hlooked hlookup
    obtain ⟨hrefused, rfl⟩ := ofHistory_eq.mp hcreate
    rw [List.append_assoc] at hrefused ⊢
    exact .inr ⟨_, _, rfl, rfl, .refused .created (fun _ => hanswer) (List.prefix_refl _)
      (hreached hanswer) hrefused⟩
  | created hlookup hcreate =>
    obtain ⟨hanswer, rfl⟩ := hlooked hlookup
    obtain ⟨hcreated, rfl⟩ := ofHistory_eq.mp hcreate
    rw [List.append_assoc] at hcreated ⊢
    refine .inl ⟨.created, rfl, rfl, (hreached hanswer).concat hcreated, ?_, ?_⟩
    · exact iff_of_true rfl hanswer
    · intro found rest hfound
      exact absurd (hanswer.symm.trans hfound) (by simp)
  | drifted hlookup hdrifts =>
    obtain ⟨hanswer, rfl⟩ := hlooked hlookup
    exact .inr ⟨_, _, rfl, rfl, .drifted (hreached hanswer) hanswer hdrifts⟩
  | verified hlookup hagrees =>
    obtain ⟨hanswer, rfl⟩ := hlooked hlookup
    refine .inl ⟨.verified, rfl, rfl, hreached hanswer, ?_, ?_⟩
    · exact iff_of_false nofun (by simp [hanswer])
    · intro found' rest' hfound
      obtain ⟨rfl, -⟩ := List.cons.inj (Except.ok.inj (hanswer.symm.trans hfound))
      exact hagrees

theorem TableVisit.sent {result : Except DatabaseError TableStatus}
    (h : TableVisit (Driver.ofHistory answer) d drop p past result s') :
    (∃ status, result = .ok status ∧ s' = past ++ p.segment d drop status ∧
        Completes answer d drop past p status) ∨
      ∃ last e, result = .error e ∧ s' = past ++ last ∧ Stops answer d drop past p last e := by
  cases h with
  | undropped asked hdrop =>
    subst asked
    obtain ⟨hanswer, rfl⟩ := ofHistory_eq.mp hdrop
    have hwithin : [] ++ [p.drop] <+: p.segment d true .verified := List.prefix_append [p.drop] _
    exact .inr ⟨_, _, rfl, rfl, .refused .verified nofun hwithin answered_nil hanswer⟩
  | reached hprepares hsettles =>
    obtain ⟨front, happroach, rfl, hfront⟩ := hprepares.sent d
    exact hsettles.sent happroach hfront

/-! ## visits in turn -/

def AllComplete (answer : List Statement → Except String (List ResultRow)) (d : Dialect) (drop : Bool)
    (past : List Statement) (done : List (PlannedTable × TableStatus)) : Prop :=
  ∀ front p status back, done = front ++ (p, status) :: back →
    Completes answer d drop (past ++ segments d drop front) p status

theorem allComplete_nil : AllComplete answer d drop past [] := by
  intro front p status back h
  exact absurd h (by simp)

theorem AllComplete.cons {status : TableStatus} {done : List (PlannedTable × TableStatus)}
    (h : Completes answer d drop past p status)
    (hdone : AllComplete answer d drop (past ++ p.segment d drop status) done) :
    AllComplete answer d drop past ((p, status) :: done) := by
  intro front p' status' back heq
  cases front with
  | nil =>
    obtain ⟨hvisit, -⟩ := List.cons.inj heq
    obtain ⟨rfl, rfl⟩ := Prod.mk.inj hvisit
    show Completes answer d drop (past ++ []) p status
    rwa [List.append_nil]
  | cons visit front =>
    obtain ⟨rfl, htail⟩ := List.cons.inj heq
    rw [segments_cons, ← List.append_assoc]
    exact hdone front p' status' back htail

theorem TableVisits.sent {plans : List PlannedTable}
    {result : Except DatabaseError (List (String × TableStatus))}
    (h : TableVisits (Driver.ofHistory answer) d drop plans past result s') :
    ∃ done rest last, plans = done.map Prod.fst ++ rest ∧ s' = past ++ segments d drop done ++ last ∧
      AllComplete answer d drop past done ∧
      ((rest = [] ∧ last = [] ∧ result = .ok (done.map fun visit => (visit.1.name, visit.2))) ∨
        ∃ p later e, rest = p :: later ∧ result = .error e ∧
          Stops answer d drop (past ++ segments d drop done) p last e) := by
  generalize hdriver : Driver.ofHistory answer = driver at h
  -- the history is the state of the driver, so it grows along the visits
  induction h with
  | done past =>
    exact ⟨[], [], [], rfl, by simp [segments], allComplete_nil, .inl ⟨rfl, rfl, rfl⟩⟩
  | @stopped p plans past s' e hvisit =>
    subst hdriver
    rcases hvisit.sent with ⟨status, herror, -⟩ | ⟨last, e', herror, rfl, hstops⟩
    · exact nomatch herror
    · obtain rfl := Except.error.inj herror
      refine ⟨[], p :: plans, last, rfl, by simp [segments], allComplete_nil,
        .inr ⟨p, plans, e, rfl, rfl, ?_⟩⟩
      show Stops answer d drop (past ++ []) p last e
      rwa [List.append_nil]
  | @next p plans past s₁ s' status result hvisit hvisits ih =>
    subst hdriver
    rcases hvisit.sent with ⟨status', hok, rfl, hcompletes⟩ | ⟨last, e, hok, -⟩
    · obtain rfl := Except.ok.inj hok
      obtain ⟨done, rest, last, rfl, rfl, hdone, hend⟩ := ih
      refine ⟨(p, status) :: done, rest, last, rfl, ?_, .cons hcompletes hdone, ?_⟩
      · rw [segments_cons]
        simp only [List.append_assoc]
      · rcases hend with ⟨rfl, rfl, rfl⟩ | ⟨p', later, e, rfl, rfl, hstops⟩
        · exact .inl ⟨rfl, rfl, rfl⟩
        · refine .inr ⟨p', later, e, rfl, rfl, ?_⟩
          rwa [segments_cons, ← List.append_assoc]
    · exact nomatch hok

end

/-! ## validation -/

/-- **Exact trace of validation.**  For every schema that declarations build, every dialect and every driver,
the plans of the tables split into those that are done and the rest.  The driver is sent the segments of those
that are done, each of them completed, and nothing else if there is no rest: then the result is the report, one
entry for each table.  Otherwise validation stops at the first table of the rest, with its error. -/
theorem Database.validate_trace (d : Dialect) (drop : Bool)
    (answer : List Statement → Except String (List ResultRow)) (past : List Statement)
    {cs : List TableDeclaration} (hc : ∀ c ∈ cs, ∀ a ∈ c.attributes, a.Declared) :
    ∃ accepted plans, accepted.Sublist cs ∧
      List.Forall₂ Schema.Enters accepted (Schema.declareAll cs).tables.entries ∧
      (Schema.declareAll cs).Planned d plans ∧
      ∃ done rest last result events,
        plans = done.map Prod.fst ++ rest ∧
        ((⟨Driver.ofHistory answer, d⟩ : Database (List Statement)).validate
            (Schema.declareAll cs) drop).runOn past
          = (result, past ++ segments d drop done ++ last, events) ∧
        AllComplete answer d drop past done ∧
        ((rest = [] ∧ last = [] ∧ result = .ok (done.map fun visit => (visit.1.name, visit.2))) ∨
          ∃ p later e, rest = p :: later ∧ result = .error e ∧
            Stops answer d drop (past ++ segments d drop done) p last e) := by
  obtain ⟨accepted, hsub, henters⟩ := Schema.exists_accepted cs
  obtain ⟨plans, hplans⟩ := Schema.exists_plans d hc
  obtain ⟨result, s', hvisits, hruns⟩ :=
    (⟨Driver.ofHistory answer, d⟩ : Database (List Statement)).exists_visits hplans drop past
  obtain ⟨done, rest, last, hsplit, rfl, hdone, hend⟩ := hvisits.sent
  obtain ⟨events, hrun⟩ := hruns.runOn
  exact ⟨accepted, plans, hsub, henters, hplans, done, rest, last, result, events, hsplit, hrun, hdone, hend⟩

/-! ## two tables and a full database -/

/-- persons and members; the second declaration repeats a name and is refused -/
def clubDeclarations : List TableDeclaration := [Relation.persons, Relation.persons, Relation.members]

theorem declared_club : ∀ c ∈ clubDeclarations, ∀ a ∈ c.attributes, a.Declared := by
  have hid : Attribute.declare ⟨0⟩ "id" .integer { primaryKey := true } = .ok _ := rfl
  have hborn : Attribute.declare ⟨1⟩ "born" .integer {} = .ok _ := rfl
  have hperson : Attribute.declare ⟨3⟩ "person" .integer {} = .ok _ := rfl
  have hpersons : ∀ a ∈ Relation.persons.attributes, a.Declared := by
    intro a ha
    simp only [Relation.persons, List.mem_cons, List.not_mem_nil, or_false] at ha
    rcases ha with rfl | rfl
    · exact .declare hid
    · exact .declare hborn
  have hmembers : ∀ a ∈ Relation.members.attributes, a.Declared := by
    intro a ha
    rw [List.mem_singleton.mp ha]
    exact .declare hperson
  intro c hc
  simp only [clubDeclarations, List.mem_cons, List.not_mem_nil, or_false] at hc
  rcases hc with rfl | rfl | rfl
  · exact hpersons
  · exact hpersons
  · exact hmembers

/-- a driver that finds no table and refuses the sixth statement -/
def sixthRefused (history : List Statement) : Except String (List ResultRow) :=
  if history.length < 6 then .ok [] else .error "database full"

/-- the hypothesis of `Database.validate_trace` can be met, with a run that stops before the second table is
created -/
theorem Database.validate_trace_club :
    (∀ c ∈ clubDeclarations, ∀ a ∈ c.attributes, a.Declared) ∧
      (((⟨Driver.ofHistory sixthRefused, .sqlite⟩ : Database (List Statement)).validate
          (Schema.declareAll clubDeclarations) true).runOn []).1 = .error (.driver "database full") ∧
      ∃ accepted plans, accepted.Sublist clubDeclarations ∧
        List.Forall₂ Schema.Enters accepted (Schema.declareAll clubDeclarations).tables.entries ∧
        (Schema.declareAll clubDeclarations).Planned .sqlite plans ∧
        ∃ done rest last result events,
          plans = done.map Prod.fst ++ rest ∧
          ((⟨Driver.ofHistory sixthRefused, .sqlite⟩ : Database (List Statement)).validate
              (Schema.declareAll clubDeclarations) true).runOn []
            = (result, [] ++ segments .sqlite true done ++ last, events) ∧
          AllComplete sixthRefused .sqlite true [] done ∧
          ((rest = [] ∧ last = [] ∧ result = .ok (done.map fun visit => (visit.1.name, visit.2))) ∨
            ∃ p later e, rest = p :: later ∧ result = .error e ∧
              Stops sixthRefused .sqlite true ([] ++ segments .sqlite true done) p last e) :=
  ⟨declared_club, rfl, Database.validate_trace .sqlite true sixthRefused [] declared_club⟩

end TableAlgebra
