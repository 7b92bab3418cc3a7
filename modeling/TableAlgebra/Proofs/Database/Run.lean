import TableAlgebra.Database.Validation

/-!
# Runs of actions

An action changes the state of the driver and reports events.  `Action.Runs` keeps the first and passes over
the second, so what is said about a run is said about the statements that the driver was sent and the answers
it gave.

* `Action.attempt`       an action with its outcome, and what comes of steps one after the other;
* `Action.Runs`          an action leads from one state of the driver to another, with a result;
* `Runs.bind`, `Runs.bind_error`   steps one after the other, and a step that fails;
* `Driver.ofHistory`     the driver that answers by what it has been sent so far;
* `Driver.recording`     a driver that keeps what it is sent.
-/

namespace TableAlgebra

namespace Action

variable {σ α β : Type}

/-- the work with its outcome, an error like a result -/
def attempt (action : Action σ α) : StateM (Session σ) (Except DatabaseError α) := ExceptT.run action

section

variable {s s' : Session σ}

theorem attempt_bind_ok {x : Action σ α} {a : α} (h : x.attempt.run s = (.ok a, s'))
    (f : α → Action σ β) : (x >>= f).attempt.run s = (f a).attempt.run s' := by
  unfold attempt at h ⊢
  rw [ExceptT.run_bind, StateT.run_bind, h]
  rfl

theorem attempt_bind_error {x : Action σ α} {e : DatabaseError}
    (h : x.attempt.run s = (.error e, s')) (f : α → Action σ β) :
    (x >>= f).attempt.run s = (.error e, s') := by
  unfold attempt at h ⊢
  rw [ExceptT.run_bind, StateT.run_bind, h]
  rfl

theorem attempt_map {x : Action σ α} {result : Except DatabaseError α}
    (h : x.attempt.run s = (result, s')) (f : α → β) : (f <$> x).attempt.run s = (result.map f, s') := by
  unfold attempt at h ⊢
  rw [ExceptT.run_map, StateT.run_map, h]
  rfl

theorem attempt_tryCatch_ok {x : Action σ α} {a : α} (h : x.attempt.run s = (.ok a, s'))
    (handle : DatabaseError → Action σ α) : (tryCatch x handle).attempt.run s = (.ok a, s') := by
  unfold attempt at h ⊢
  simp only [tryCatch, tryCatchThe, MonadExceptOf.tryCatch, ExceptT.tryCatch, ExceptT.run_mk]
  rw [StateT.run_bind, show StateT.run x s = _ from h]
  rfl

theorem attempt_tryCatch_error {x : Action σ α} {e : DatabaseError}
    (h : x.attempt.run s = (.error e, s')) (handle : DatabaseError → Action σ α) :
    (tryCatch x handle).attempt.run s = (handle e).attempt.run s' := by
  unfold attempt at h ⊢
  simp only [tryCatch, tryCatchThe, MonadExceptOf.tryCatch, ExceptT.tryCatch, ExceptT.run_mk]
  rw [StateT.run_bind, show StateT.run x s = _ from h]
  rfl

theorem attempt_tryFinally {x : Action σ α} {result : Except DatabaseError α}
    {last : Action σ Unit} {s'' : Session σ}
    (h : x.attempt.run s = (result, s')) (hlast : last.attempt.run s' = (.ok (), s'')) :
    (tryFinally x last).attempt.run s = (result, s'') := by
  have hx : x s = (result, s') := h
  have hl : last s' = (.ok (), s'') := hlast
  unfold attempt tryFinally
  rw [ExceptT.run_map, StateT.run_map]
  simp only [tryFinally', ExceptT.run_mk, StateT.run_bind]
  unfold StateT.run
  dsimp only [bind, pure, Functor.map, Id]
  rw [hx]
  -- `last` is run after either outcome, and the outcome is given back
  cases result <;>
  · dsimp only
    rw [hl]
    rfl

theorem attempt_send {driver : Driver σ} {wrap : String → DatabaseError} {statement : Statement}
    {answer : Except String (List ResultRow)} {state : σ} (h : driver statement s.state = (answer, state)) :
    (send driver wrap statement).attempt.run s = (answer.mapError wrap, { s with state }) := by
  have hget : (get : Action σ (Session σ)).attempt.run s = (.ok s, s) := rfl
  have hset : (set { s with state } : Action σ PUnit).attempt.run s = (.ok ⟨⟩, { s with state }) := rfl
  unfold send
  rw [attempt_bind_ok hget, h, attempt_bind_ok hset]
  cases answer <;> rfl

end

/-- from the state `s` the action gives the result and leaves the state `s'`, whatever was reported before -/
def Runs (action : Action σ α) (s : σ) (result : Except DatabaseError α) (s' : σ) : Prop :=
  ∀ events, ∃ more, (ExceptT.run action).run ⟨s, events⟩ = (result, ⟨s', events ++ more⟩)

namespace Runs

variable {s s₁ s' : σ}

theorem pure (a : α) (s : σ) : Runs (Pure.pure a : Action σ α) s (.ok a) s :=
  fun events => ⟨[], by rw [List.append_nil]; rfl⟩

theorem throw (e : DatabaseError) (s : σ) : Runs (throw e : Action σ α) s (.error e) s :=
  fun events => ⟨[], by rw [List.append_nil]; rfl⟩

theorem report (e : Event) (s : σ) : Runs (Action.report e) s (.ok ()) s :=
  fun _ => ⟨[e], rfl⟩

theorem bind {x : Action σ α} {f : α → Action σ β} {a : α} {result : Except DatabaseError β}
    (hx : Runs x s (.ok a) s₁) (hf : Runs (f a) s₁ result s') : Runs (x >>= f) s result s' := by
  intro events
  obtain ⟨first, hfirst⟩ := hx events
  obtain ⟨second, hsecond⟩ := hf (events ++ first)
  refine ⟨first ++ second, ?_⟩
  rw [← List.append_assoc]
  exact (attempt_bind_ok hfirst f).trans hsecond

theorem bind_error {x : Action σ α} {f : α → Action σ β} {e : DatabaseError}
    (hx : Runs x s (.error e) s') : Runs (x >>= f) s (.error e) s' := by
  intro events
  obtain ⟨more, hmore⟩ := hx events
  exact ⟨more, attempt_bind_error hmore f⟩

theorem map {x : Action σ α} {result : Except DatabaseError α} (h : Runs x s result s') (f : α → β) :
    Runs (do return f (← x)) s (result.map f) s' := by
  cases result with
  | error e => exact bind_error h
  | ok a => exact bind h (pure (f a) s')

theorem compile {d : Dialect} {c : Command} {statement : Statement} (h : c.compile d = .ok statement)
    (s : σ) : Runs (Action.compile d c) s (.ok statement) s := by
  unfold Action.compile
  rw [h]
  exact bind (report _ s) (pure statement s)

theorem send {driver : Driver σ} {wrap : String → DatabaseError} {statement : Statement}
    {answer : Except String (List ResultRow)} (h : driver statement s = (answer, s')) :
    Runs (Action.send driver wrap statement) s (answer.mapError wrap) s' :=
  fun events => ⟨[], by rw [List.append_nil]; exact attempt_send h⟩

theorem unique {action : Action σ α} {result other : Except DatabaseError α} {s'' : σ}
    (h : Runs action s result s') (hother : Runs action s other s'') : result = other ∧ s' = s'' := by
  obtain ⟨_, h⟩ := h []
  obtain ⟨_, hother⟩ := hother []
  have hsame := h.symm.trans hother
  rw [Prod.mk.injEq, Session.mk.injEq] at hsame
  exact ⟨hsame.1, hsame.2.1⟩

theorem runOn {action : Action σ α} {result : Except DatabaseError α} (h : Runs action s result s') :
    ∃ events, action.runOn s = (result, s', events) := by
  obtain ⟨more, hmore⟩ := h []
  refine ⟨more, ?_⟩
  unfold Action.runOn
  rw [hmore]
  rfl

end Runs

end Action

namespace Database

variable {σ : Type} {db : Database σ} {s s' : σ} {statement : Statement}

theorem runs_execute {answer : Except String (List ResultRow)} (h : db.driver statement s = (answer, s')) :
    (db.execute statement).Runs s (answer.mapError .driver) s' :=
  .bind (.report _ s) (.send h)

end Database

/-! ## drivers that keep what they are sent -/

namespace Driver

/-- the driver whose answer to a statement is a function of all it has been sent, this statement last -/
def ofHistory (answer : List Statement → Except String (List ResultRow)) : Driver (List Statement) :=
  fun statement past => (answer (past ++ [statement]), past ++ [statement])

/-- the driver that also keeps the statements it is sent, in order -/
def recording {σ : Type} (driver : Driver σ) : Driver (σ × List Statement) :=
  fun statement s =>
    let (answer, state) := driver statement s.1
    (answer, state, s.2 ++ [statement])

end Driver

end TableAlgebra
