import TableAlgebra.Database.Transaction
import TableAlgebra.Proofs.Database.Run
import TableAlgebra.Proofs.Sql.Verb

/-!
# The life of a transaction

Against a driver that answers by what it has been sent, every call of a transaction has one effect: it sends the
statement it compiles to, or nothing if it does not compile, and what comes back is an error or the rows.  No
reply stops the calls after it.  The mark that a transaction is finished is set before its last statement is sent,
so of a commit, a rollback and the warning of a drop each life has exactly one, whatever the driver answers.

* `Session.after`                 a session with more statements sent and more events reported;
* `Transaction.Call`, `Transaction.attempt_call`   the calls, and what one of them does;
* `Database.transact`             a whole life of a transaction;
* `Database.transact_lifecycle`   the statements, the replies and the one end of a transaction.
-/

namespace TableAlgebra

/-! ## work on a history -/

/-- the session after more statements were sent and more events reported -/
def Session.after (s : Session (List Statement)) (sent : List Statement) (reported : List Event) :
    Session (List Statement) :=
  ⟨s.state ++ sent, s.events ++ reported⟩

namespace Session

variable (s : Session (List Statement)) (sent sent' : List Statement) (reported reported' : List Event)

theorem state_after : (s.after sent reported).state = s.state ++ sent := rfl

theorem after_nil : s.after [] [] = s := by
  unfold after
  rw [List.append_nil, List.append_nil]

theorem after_after :
    (s.after sent reported).after sent' reported' = s.after (sent ++ sent') (reported ++ reported') := by
  unfold after
  rw [List.append_assoc, List.append_assoc]

end Session

namespace Action

section

variable {s : Session (List Statement)} {d : Dialect} {c : Command}

theorem attempt_report (e : Event) : (Action.report e).attempt.run s = (.ok (), s.after [] [e]) := by
  unfold Session.after
  rw [List.append_nil]
  rfl

theorem attempt_compile_ok {statement : Statement} (h : c.compile d = .ok statement) :
    (Action.compile d c).attempt.run s
      = (.ok statement, s.after [] [.compiledStatement d c.kindName statement]) := by
  unfold Action.compile Session.after
  rw [h, List.append_nil]
  rfl

theorem attempt_compile_error {e : CompileError} (h : c.compile d = .error e) :
    (Action.compile d c).attempt.run s = (.error (.compile e), s.after [] []) := by
  unfold Action.compile
  rw [h, Session.after_nil]
  rfl

end

end Action

def Ending.statement? : Ending → Option Statement
  | .commit => some { sql := "commit" }
  | .rollback => some { sql := "rollback" }
  | .dropped => none

def Transaction.beginning : Statement := { sql := "begin" }

namespace Transaction

/-! ## calls -/

inductive Call where
  | query (relation : Relation)
  | insert (relation : Relation) (rows : List Row)
  | update (relation : Relation) (row : Row) (condition : Option Expr)
  | remove (relation : Relation) (condition : Option Expr)

/-- what a call gives back: the result of a query, or the rows of the driver -/
inductive Returned where
  | result (result : QueryResult)
  | rows (rows : List ResultRow)

namespace Call

variable {σ : Type}

def run (tx : Transaction σ) : Call → Action σ Returned
  | query r => do return .result (← tx.query r)
  | insert r rows => do return .rows (← tx.insert r rows)
  | update r row condition => do return .rows (← tx.update r row condition)
  | remove r condition => do return .rows (← tx.remove r condition)

def command : Call → Command
  | query r => .select r true
  | insert r rows => .insert r rows
  | update r row condition => .update r row condition
  | remove r condition => .remove r condition

/-- the rows of the driver as the call gives them back -/
def returned : Call → List ResultRow → Returned
  | query _, rows => .result (.ofRows rows)
  | _, rows => .rows rows

def statement? (d : Dialect) (call : Call) : Option Statement := (call.command.compile d).toOption

theorem run_eq (tx : Transaction σ) (call : Call) :
    call.run tx = call.returned <$> tx.command call.command := by
  cases call with
  | query r =>
    have hquery : tx.query r = QueryResult.ofRows <$> tx.command (.select r true) := bind_pure_comp _ _
    have hrun : (query r).run tx = Returned.result <$> tx.query r := bind_pure_comp _ _
    rw [hrun, hquery, Functor.map_map]
    rfl
  | _ => exact bind_pure_comp _ _

end Call

section

variable (answer : List Statement → Except String (List ResultRow)) (d : Dialect) (id : Serial)

/-- the transaction of a number on the driver that answers by what it has been sent -/
def on (finished : Bool) : Transaction (List Statement) := { id, database := ⟨.ofHistory answer, d⟩, finished }

/-- how the driver answers a statement after others; its error becomes that of the transaction -/
def answered (past : List Statement) (statement : Statement) : Except DatabaseError (List ResultRow) :=
  (answer (past ++ [statement])).mapError (.transaction id statement.sql)

def Call.reply (past : List Statement) (call : Call) : Except DatabaseError Returned :=
  match call.command.compile d with
  | .error e => .error (.compile e)
  | .ok statement => (answered answer id past statement).map call.returned

/-- the reply to the ending after other statements; a transaction that is dropped sends nothing and has none -/
def endReply (past : List Statement) (ending : Ending) : Except DatabaseError Unit :=
  match ending.statement? with
  | none => .ok ()
  | some statement => (answered answer id past statement).map fun _ => ()

/-- what is reported of a call: the statement that was compiled, and that it was sent -/
def Call.reported (call : Call) : List Event :=
  match call.command.compile d with
  | .error _ => []
  | .ok statement =>
    [.compiledStatement d call.command.kindName statement, .executingInTransaction id statement.sql]

variable (finished : Bool) (s : Session (List Statement))

theorem attempt_run (statement : Statement) :
    ((on answer d id finished).run statement).attempt.run s
      = (answered answer id s.state statement,
          s.after [statement] [.executingInTransaction id statement.sql]) := by
  unfold Transaction.run
  exact (Action.attempt_bind_ok rfl _).trans (Action.attempt_send rfl)

/-- a call that compiles sends its statement, any other one sends nothing -/
theorem attempt_call (call : Call) :
    (call.run (on answer d id finished)).attempt.run s
      = (call.reply answer d id s.state, s.after (call.statement? d).toList (call.reported d id)) := by
  have hcommand : (on answer d id finished).command call.command
      = Action.compile d call.command >>= (on answer d id finished).run := rfl
  rw [Call.run_eq, hcommand]
  unfold Call.reply Call.statement? Call.reported
  cases h : call.command.compile d with
  | error e =>
    have hfails := Action.attempt_bind_error (s := s) (Action.attempt_compile_error h) (on answer d id finished).run
    exact Action.attempt_map hfails call.returned
  | ok statement =>
    have hsends := Action.attempt_bind_ok (s := s) (Action.attempt_compile_ok h) (on answer d id finished).run
    rw [attempt_run, Session.state_after, List.append_nil, Session.after_after] at hsends
    exact Action.attempt_map hsends call.returned

/-- Calls one after the other: each is made, whatever came of those before it. -/
theorem attempt_calls (calls : List Call) :
    (calls.mapM fun call : Call => (call.run (on answer d id finished)).attempt).run s
      = (calls.mapIdx fun i call =>
            call.reply answer d id (s.state ++ (calls.take i).filterMap (·.statement? d)),
          s.after (calls.filterMap (·.statement? d)) (calls.flatMap (·.reported d id))) := by
  induction calls generalizing s with
  | nil => exact congrArg (Prod.mk _) s.after_nil.symm
  | cons call calls ih =>
    have hcons (cs : List Call) : (call :: cs).filterMap (·.statement? d)
        = (call.statement? d).toList ++ cs.filterMap (·.statement? d) := by
      rw [List.filterMap_cons]
      cases call.statement? d <;> rfl
    -- what was sent before a later call begins with what this call has sent
    have hpast (i : Nat) : s.state ++ (call.statement? d).toList ++ (calls.take i).filterMap (·.statement? d)
        = s.state ++ ((call :: calls).take (i + 1)).filterMap (·.statement? d) := by
      rw [List.take_succ_cons, hcons, List.append_assoc]
    rw [List.mapM_cons, StateT.run_bind, attempt_call]
    show (do
      let replies ← calls.mapM fun call : Call => (call.run (on answer d id finished)).attempt
      return call.reply answer d id s.state :: replies : StateM (Session (List Statement)) _).run _ = _
    rw [StateT.run_bind, ih, Session.after_after, Session.state_after]
    simp only [hpast]
    rw [hcons, List.flatMap_cons, List.mapIdx_cons, List.take_zero, List.filterMap_nil, List.append_nil]
    rfl

/-! ## beginning and end -/

theorem attempt_begin_ok {rows : List ResultRow} (h : answer (s.state ++ [beginning]) = .ok rows) :
    ((⟨.ofHistory answer, d⟩ : Database (List Statement)).begin id).attempt.run s
      = (.ok (on answer d id false),
          s.after [beginning] [.executingInTransaction id "begin", .transactionBegin id]) := by
  have hsent := attempt_run answer d id false s beginning
  unfold answered at hsent
  rw [h] at hsent
  have hbegun := Action.attempt_tryCatch_ok (Action.attempt_map hsent fun _ => ()) fun error => do
    (on answer d id true).drop
    throw error
  unfold Database.begin
  refine (Action.attempt_bind_ok hbegun _).trans ?_
  refine (Action.attempt_bind_ok (Action.attempt_report _) _).trans ?_
  rw [Session.after_after]
  rfl

theorem attempt_begin_error {message : String} (h : answer (s.state ++ [beginning]) = .error message) :
    ((⟨.ofHistory answer, d⟩ : Database (List Statement)).begin id).attempt.run s
      = (.error (.transaction id "begin" message), s.after [beginning] [.executingInTransaction id "begin"]) := by
  have hsent := attempt_run answer d id false s beginning
  unfold answered at hsent
  rw [h] at hsent
  have hrefused := Action.attempt_tryCatch_error (Action.attempt_map hsent fun _ => ()) fun error => do
    (on answer d id true).drop
    throw error
  unfold Database.begin
  exact Action.attempt_bind_error hrefused _

/-- The last statement is sent with the transaction marked as finished, so no warning follows it, whether or not
the driver refuses it. -/
theorem attempt_close (sql : String) {closed : Event} (hclosed : closed ≠ .transactionDropped id) :
    ∃ reported, ((on answer d id finished).close sql closed).attempt.run s
      = ((answered answer id s.state { sql }).map fun _ => (), s.after [{ sql }] reported) ∧
      reported.count (.transactionDropped id) = 0 := by
  have hsent := attempt_run answer d id true s { sql }
  have hdrop (s' : Session (List Statement)) : ((on answer d id true).drop).attempt.run s' = (.ok (), s') := rfl
  cases h : answered answer id s.state { sql } with
  | error e =>
    rw [h] at hsent
    have hwork := Action.attempt_bind_error hsent fun _ => Action.report closed
    exact ⟨_, Action.attempt_tryFinally hwork (hdrop _), rfl⟩
  | ok rows =>
    rw [h] at hsent
    have hwork := Action.attempt_bind_ok hsent fun _ => Action.report closed
    rw [Action.attempt_report, Session.after_after] at hwork
    exact ⟨_, Action.attempt_tryFinally hwork (hdrop _), by simp [hclosed]⟩

/-- an ending sends its statement, or leaves the warning if it has none -/
theorem attempt_finish (ending : Ending) :
    ∃ reported, ((on answer d id false).finish ending).attempt.run s
      = (endReply answer id s.state ending, s.after ending.statement?.toList reported) ∧
      reported.count (.transactionDropped id) = if ending = .dropped then 1 else 0 := by
  cases ending with
  | commit => exact attempt_close answer d id false s "commit" nofun
  | rollback => exact attempt_close answer d id false s "rollback" nofun
  | dropped =>
    refine ⟨[.transactionDropped id], Action.attempt_report _, ?_⟩
    rw [List.count_singleton_self]
    rfl

end

theorem Call.sql_ne {d : Dialect} {call : Call} {statement : Statement}
    (h : call.statement? d = some statement) : statement.sql ≠ "commit" ∧ statement.sql ≠ "rollback" := by
  have hcompile : call.command.compile d = .ok statement := toOption_eq_some.mp h
  have hverb := Command.hasVerb hcompile
  cases call <;> exact ⟨hverb.ne (by simp [command, Command.verb]), hverb.ne (by simp [command, Command.verb])⟩

/-- what a transaction came to: it was refused at its beginning, or each call and the ending had a reply -/
inductive Lifetime where
  | refused (error : DatabaseError)
  | ended (replies : List (Except DatabaseError Returned)) (reply : Except DatabaseError Unit)

/-- makes the calls one after the other, whatever each comes to, and ends the transaction -/
def live {σ : Type} (tx : Transaction σ) (calls : List Call) (ending : Ending) : StateM (Session σ) Lifetime := do
  let replies ← calls.mapM fun call => (call.run tx).attempt
  return .ended replies (← (tx.finish ending).attempt)

/-! ## one end -/

def ends (id : Serial) (sent : List Statement) (reported : List Event) : Nat :=
  (sent.map Statement.sql).count "commit" + (sent.map Statement.sql).count "rollback"
    + reported.count (.transactionDropped id)

section

variable (d : Dialect) (id : Serial) (calls : List Call)

theorem count_reported : (calls.flatMap (·.reported d id)).count (.transactionDropped id) = 0 := by
  rw [List.count_eq_zero]
  intro hmem
  obtain ⟨call, -, hreported⟩ := List.mem_flatMap.mp hmem
  unfold Call.reported at hreported
  cases h : call.command.compile d <;> simp [h] at hreported

theorem count_calls {word : String} (hword : word = "commit" ∨ word = "rollback") :
    ((calls.filterMap (·.statement? d)).map Statement.sql).count word = 0 := by
  rw [List.count_eq_zero]
  intro hmem
  obtain ⟨statement, hstatement, rfl⟩ := List.mem_map.mp hmem
  obtain ⟨call, -, h⟩ := List.mem_filterMap.mp hstatement
  obtain hsql | hsql := hword
  · exact (Call.sql_ne h).1 hsql
  · exact (Call.sql_ne h).2 hsql

theorem ends_eq_one (ending : Ending) {reported : List Event}
    (h : reported.count (.transactionDropped id) = if ending = .dropped then 1 else 0) :
    ends id (beginning :: calls.filterMap (·.statement? d) ++ ending.statement?.toList) reported = 1 := by
  have hcommit := count_calls d calls (.inl rfl)
  have hrollback := count_calls d calls (.inr rfl)
  unfold ends
  rw [h, List.map_append, List.count_append, List.count_append, List.map_cons, List.count_cons_of_ne (by decide),
    List.count_cons_of_ne (by decide), hcommit, hrollback]
  cases ending <;> rfl

end

theorem run_live (answer : List Statement → Except String (List ResultRow)) (d : Dialect) (id : Serial)
    (s : Session (List Statement)) (calls : List Call) (ending : Ending) :
    ∃ reported, ((on answer d id false).live calls ending).run s
      = (.ended
          (calls.mapIdx fun i call =>
            call.reply answer d id (s.state ++ (calls.take i).filterMap (·.statement? d)))
          (endReply answer id (s.state ++ calls.filterMap (·.statement? d)) ending),
        s.after (calls.filterMap (·.statement? d) ++ ending.statement?.toList) reported) ∧
      reported.count (.transactionDropped id) = if ending = .dropped then 1 else 0 := by
  obtain ⟨closing, hfinish, hclosing⟩ := attempt_finish answer d id
    (s.after (calls.filterMap (·.statement? d)) (calls.flatMap (·.reported d id))) ending
  refine ⟨calls.flatMap (·.reported d id) ++ closing, ?_, ?_⟩
  · unfold live
    rw [StateT.run_bind, attempt_calls]
    show (do return Lifetime.ended _ (← ((on answer d id false).finish ending).attempt) :
      StateM (Session (List Statement)) Lifetime).run _ = _
    rw [StateT.run_bind, hfinish, Session.after_after]
    rfl
  · rw [List.count_append, count_reported, hclosing, Nat.zero_add]

end Transaction

open Transaction

/-- a whole life of a transaction: it is begun, its calls are made, and it is ended -/
def Database.transact {σ : Type} (db : Database σ) (id : Serial) (calls : List Transaction.Call) (ending : Ending) :
    StateM (Session σ) Lifetime := do
  match ← (db.begin id).attempt with
  | .error e => return .refused e
  | .ok tx => tx.live calls ending

/-- **The life of a transaction.**  Whatever the driver answers and has been sent before: if it refuses the
beginning, nothing more is sent, and there is no warning.  Otherwise it is sent the beginning, the statement of
each call that compiles, in order, and that of the ending.  A call that does not compile has the error of the
compiler for a reply, and a statement that the driver refuses its error with the number of the transaction and the
text sent; no reply stops what comes after it.  Of a commit, a rollback and the warning there is exactly one. -/
theorem Database.transact_lifecycle (answer : List Statement → Except String (List ResultRow)) (d : Dialect)
    (id : Serial) (calls : List Transaction.Call) (ending : Ending) (past : List Statement) (events : List Event) :
    ∃ lifetime sent reported,
      ((⟨.ofHistory answer, d⟩ : Database _).transact id calls ending).run ⟨past, events⟩
        = (lifetime, ⟨past ++ sent, events ++ reported⟩) ∧
      match answer (past ++ [beginning]) with
      | .error message =>
        lifetime = .refused (.transaction id "begin" message) ∧ sent = [beginning] ∧ ends id sent reported = 0
      | .ok _ =>
        lifetime = .ended
          (calls.mapIdx fun i call =>
            call.reply answer d id (past ++ [beginning] ++ (calls.take i).filterMap (·.statement? d)))
          (endReply answer id (past ++ [beginning] ++ calls.filterMap (·.statement? d)) ending) ∧
        sent = beginning :: calls.filterMap (·.statement? d) ++ ending.statement?.toList ∧
        ends id sent reported = 1 := by
  unfold transact
  rw [StateT.run_bind]
  cases h : answer (past ++ [beginning]) with
  | error message =>
    rw [attempt_begin_error answer d id ⟨past, events⟩ h]
    exact ⟨_, _, _, rfl, rfl, rfl, rfl⟩
  | ok rows =>
    rw [attempt_begin_ok answer d id ⟨past, events⟩ h]
    obtain ⟨reported, hlive, hcount⟩ := run_live answer d id
      ((⟨past, events⟩ : Session (List Statement)).after [beginning]
        [.executingInTransaction id "begin", .transactionBegin id]) calls ending
    rw [Session.after_after] at hlive
    exact ⟨_, _, _, hlive, rfl, rfl, ends_eq_one d id calls ending (by simpa using hcount)⟩

end TableAlgebra
