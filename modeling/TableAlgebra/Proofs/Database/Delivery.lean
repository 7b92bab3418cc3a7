import Mathlib.Data.List.Basic
import Mathlib.Data.List.Nodup
import TableAlgebra.Database.Script

/-!
# Delivery of scripted answers

All clones of a scripted driver share one script, and every call has it for itself.  So the calls made through any of
the clones come one after the other, in an order of which nothing is known, and they are numbered here in that order.
An entry of the script is known by the number of the call that added it.

* `ScriptCall`, `Script.perform`   a call, and what it does to the script;
* `Script.after`                   the script after calls of any clones;
* `Script.added`, `Script.unused`  the entries that were added, and those of them that are left;
* `Script.Delivers`                which entry answers which statement;
* `Script.delivers`                no answer is lost, given twice or given to another statement.
-/

namespace TableAlgebra

inductive ScriptCall where
  | returning (opening : String) (rows : List ResultRow)
  | failing (opening message : String)
  | connect (url : String)
  | execute (statement : Statement)

namespace ScriptCall

/-- the entry that the call adds -/
def addition? : ScriptCall → Option ScriptEntry
  | returning opening rows => some ⟨opening, .ok rows⟩
  | failing opening message => some ⟨opening, .error message⟩
  | connect _ => none
  | execute _ => none

def statement? : ScriptCall → Option Statement
  | execute statement => some statement
  | _ => none

def url? : ScriptCall → Option String
  | connect url => some url
  | _ => none

end ScriptCall

namespace Script

/-- what a call does: the answer to a statement, and the script afterwards -/
def perform (script : Script) : ScriptCall → Option (Except String (List ResultRow)) × Script
  | .returning opening rows => (none, script.returning opening rows)
  | .failing opening message => (none, script.failing opening message)
  | .connect url => (none, (connect url script).2)
  | .execute statement => (some (execute statement script).1, (execute statement script).2)

-- the clones are told apart by `κ`; it does not matter which of them makes a call
variable {κ : Type}

/-- the script after calls, each of them made through some clone; below, calls are counted from zero -/
def after (calls : List (κ × ScriptCall)) : Script :=
  calls.foldl (fun script call => (script.perform call.2).2) {}

def answerAt (calls : List (κ × ScriptCall)) (n : Nat) : Option (Except String (List ResultRow)) :=
  calls[n]?.bind fun call => ((after (calls.take n)).perform call.2).1

def entryAt (calls : List (κ × ScriptCall)) (n : Nat) : Option ScriptEntry := calls[n]?.bind (·.2.addition?)

def statementAt (calls : List (κ × ScriptCall)) (n : Nat) : Option Statement := calls[n]?.bind (·.2.statement?)

def added (calls : List (κ × ScriptCall)) (n : Nat) : List (Nat × ScriptEntry) :=
  (List.range n).filterMap fun k => (entryAt calls k).map (k, ·)

/-- those of them that answer none of the first `n` calls, where `source` gives the entries that answer -/
def unused (source : Nat → Option Nat) (calls : List (κ × ScriptCall)) (n : Nat) : List (Nat × ScriptEntry) :=
  (added calls n).filter fun e => decide (∀ k < n, source k ≠ some e.1)

/-! ## the first entry that fits -/

theorem takeFirst?_map {α : Type} (p : α → Bool) {queue : List (Nat × α)} (h : (queue.map Prod.fst).Nodup) :
    takeFirst? p (queue.map Prod.snd) = (queue.find? fun e => p e.2).map fun e =>
      (e.2, (queue.filter fun other => decide (e.1 ≠ other.1)).map Prod.snd) := by
  induction queue with
  | nil => rfl
  | cons head rest ih =>
    obtain ⟨hhead, hrest⟩ := List.nodup_cons.mp h
    have hfresh : ∀ e ∈ rest, e.1 ≠ head.1 := fun e he heq => hhead (heq ▸ List.mem_map_of_mem he)
    rw [List.map_cons, takeFirst?, List.find?_cons]
    cases hp : p head.2 with
    | true =>
      have hall : rest.filter (fun other => decide (head.1 ≠ other.1)) = rest :=
        List.filter_eq_self.mpr fun e he => decide_eq_true (hfresh e he).symm
      rw [if_pos rfl, Option.map_some, List.filter_cons_of_neg (by simp), hall]
    | false =>
      rw [if_neg Bool.false_ne_true, ih hrest]
      cases hfind : rest.find? (fun e => p e.2) with
      | none => rfl
      | some e =>
        have hne := hfresh e (List.mem_of_find?_eq_some hfind)
        simp [hne]

/-- the number of the entry that answers, of those in a queue -/
def chosen (queue : List (Nat × ScriptEntry)) (statement : Option Statement) : Option Nat :=
  statement.bind fun s => (queue.find? fun e => fits s e.2).map Prod.fst

/-- a call takes the entry that answers out of the script, and adds its own at the end -/
theorem entries_perform {script : Script} {queue : List (Nat × ScriptEntry)} (hnodup : (queue.map Prod.fst).Nodup)
    (h : script.entries = queue.map Prod.snd) (call : ScriptCall) :
    (script.perform call).2.entries =
      (queue.filter fun e => decide (chosen queue call.statement? ≠ some e.1)).map Prod.snd
        ++ call.addition?.toList := by
  cases call with
  | returning opening rows =>
    show script.entries ++ _ = _
    simp [h, chosen, ScriptCall.statement?, ScriptCall.addition?]
  | failing opening message =>
    show script.entries ++ _ = _
    simp [h, chosen, ScriptCall.statement?, ScriptCall.addition?]
  | connect url =>
    show script.entries = _
    simp [h, chosen, ScriptCall.statement?, ScriptCall.addition?]
  | execute s =>
    show (execute s script).2.entries = _
    unfold execute
    dsimp only
    rw [h, takeFirst?_map (fits s) hnodup]
    cases hfind : queue.find? (fun e => fits s e.2) with
    | none => simp [chosen, ScriptCall.statement?, ScriptCall.addition?, hfind]
    | some e => simp [chosen, ScriptCall.statement?, ScriptCall.addition?, hfind]

theorem answer_execute {script : Script} {queue : List (Nat × ScriptEntry)} (hnodup : (queue.map Prod.fst).Nodup)
    (h : script.entries = queue.map Prod.snd) (s : Statement) :
    (execute s script).1 = match queue.find? fun e => fits s e.2 with
      | some e => e.2.answer
      | none => .ok [] := by
  unfold execute
  dsimp only
  rw [h, takeFirst?_map (fits s) hnodup]
  cases queue.find? (fun e => fits s e.2) <;> rfl

/-! ## the script by numbers -/

def queue (calls : List (κ × ScriptCall)) : Nat → List (Nat × ScriptEntry)
  | 0 => []
  | n + 1 =>
    (queue calls n).filter (fun e => decide (chosen (queue calls n) (statementAt calls n) ≠ some e.1))
      ++ ((entryAt calls n).map (n, ·)).toList

/-- the number of the entry that answers the call of that number -/
def source (calls : List (κ × ScriptCall)) (n : Nat) : Option Nat := chosen (queue calls n) (statementAt calls n)

variable {calls : List (κ × ScriptCall)}

theorem queue_succ (n : Nat) : queue calls (n + 1) =
    (queue calls n).filter (fun e => decide (source calls n ≠ some e.1))
      ++ ((entryAt calls n).map (n, ·)).toList := rfl

theorem mem_added {n m : Nat} {e : ScriptEntry} : (m, e) ∈ added calls n ↔ m < n ∧ entryAt calls m = some e := by
  simp [added]

theorem added_succ (n : Nat) :
    added calls (n + 1) = added calls n ++ ((entryAt calls n).map (n, ·)).toList := by
  unfold added
  rw [List.range_succ, List.filterMap_append]
  cases h : entryAt calls n <;> simp [h]

theorem pairwise_added (calls : List (κ × ScriptCall)) (n : Nat) : (added calls n).Pairwise fun e f => e.1 < f.1 := by
  unfold added
  refine List.Pairwise.filterMap _ ?_ List.pairwise_lt_range
  intro i j hij e he f hf
  obtain ⟨x, -, rfl⟩ := Option.map_eq_some_iff.mp he
  obtain ⟨y, -, rfl⟩ := Option.map_eq_some_iff.mp hf
  exact hij

theorem queue_sublist (n : Nat) : (queue calls n).Sublist (added calls n) := by
  induction n with
  | zero => exact List.Sublist.refl _
  | succ n ih =>
    rw [queue_succ, added_succ]
    exact (List.filter_sublist.trans ih).append (List.Sublist.refl _)

theorem nodup_queue (n : Nat) : ((queue calls n).map Prod.fst).Nodup := by
  have hpairwise := (pairwise_added calls n).sublist (queue_sublist n)
  exact List.pairwise_map.mpr (hpairwise.imp fun h => Nat.ne_of_lt h)

theorem exists_of_source {n m : Nat} (h : source calls n = some m) : ∃ s e, statementAt calls n = some s ∧
    (queue calls n).find? (fun e => fits s e.2) = some (m, e) := by
  obtain ⟨s, hs, hfind⟩ := Option.bind_eq_some_iff.mp h
  obtain ⟨⟨number, e⟩, he, rfl⟩ := Option.map_eq_some_iff.mp hfind
  exact ⟨s, e, hs, he⟩

/-- an entry answers later calls than the one that adds it -/
theorem source_lt {n m : Nat} (h : source calls n = some m) : m < n := by
  obtain ⟨s, e, -, he⟩ := exists_of_source h
  exact (mem_added.mp ((queue_sublist n).subset (List.mem_of_find?_eq_some he))).1

theorem queue_eq_unused (n : Nat) : queue calls n = unused (source calls) calls n := by
  induction n with
  | zero => rfl
  | succ n ih =>
    -- an entry that is added by the last call answered none of the calls so far
    have hlast : ∀ e ∈ ((entryAt calls n).map (n, ·)).toList, ∀ k < n + 1, source calls k ≠ some e.1 := by
      intro e he k hk hsource
      obtain ⟨x, -, rfl⟩ := Option.map_eq_some_iff.mp (Option.mem_toList.mp he)
      have hlt := source_lt hsource
      omega
    rw [queue_succ, ih]
    unfold unused
    rw [added_succ, List.filter_append, List.filter_eq_self.mpr fun e he => decide_eq_true (hlast e he),
      List.filter_filter]
    congr 1
    refine List.filter_congr fun e _ => ?_
    rw [← Bool.decide_and, decide_eq_decide, Nat.forall_lt_succ_right, and_comm]

/-! ## the script after calls -/

theorem after_take_succ (n : Nat) : after (calls.take (n + 1)) =
    match calls[n]? with
    | some call => ((after (calls.take n)).perform call.2).2
    | none => after (calls.take n) := by
  rw [List.take_add_one]
  cases h : calls[n]? with
  | none => simp
  | some call => simp [after]

theorem entries_after (n : Nat) : (after (calls.take n)).entries = (queue calls n).map Prod.snd := by
  induction n with
  | zero => rfl
  | succ n ih =>
    rw [after_take_succ, queue_succ]
    unfold source entryAt statementAt
    cases calls[n]? with
    | none => simp [ih, chosen]
    | some call =>
      show ((after (calls.take n)).perform call.2).2.entries = _
      rw [entries_perform (nodup_queue n) ih, List.map_append]
      congr 1
      cases hentry : call.2.addition? <;> simp [hentry]

theorem executed_perform (script : Script) (call : ScriptCall) :
    (script.perform call).2.executed = script.executed ++ call.statement?.toList := by
  cases call with
  | execute s =>
    show (execute s script).2.executed = _
    unfold execute
    dsimp only
    cases takeFirst? (fits s) script.entries <;> rfl
  | _ => exact (List.append_nil _).symm

theorem connected_perform (script : Script) (call : ScriptCall) :
    (script.perform call).2.connected = script.connected ++ call.url?.toList := by
  cases call with
  | execute s =>
    show (execute s script).2.connected = _
    unfold execute
    dsimp only
    cases takeFirst? (fits s) script.entries <;> exact (List.append_nil _).symm
  | connect url => rfl
  | _ => exact (List.append_nil _).symm

/-- what every call adds to at the end grows by what the calls add, in their order -/
theorem foldl_log {α : Type} {log : Script → List α} {part : ScriptCall → Option α}
    (hstep : ∀ script call, log (script.perform call).2 = log script ++ (part call).toList)
    (calls : List (κ × ScriptCall)) (script : Script) :
    log (calls.foldl (fun script call => (script.perform call.2).2) script) =
      log script ++ calls.filterMap fun call => part call.2 := by
  induction calls generalizing script with
  | nil => exact (List.append_nil _).symm
  | cons call calls ih =>
    rw [List.foldl_cons, ih, hstep, List.append_assoc]
    congr 1
    cases h : part call.2 <;> simp [h]

theorem executed_after (calls : List (κ × ScriptCall)) :
    (after calls).executed = calls.filterMap (·.2.statement?) :=
  foldl_log executed_perform calls {}

theorem connected_after (calls : List (κ × ScriptCall)) : (after calls).connected = calls.filterMap (·.2.url?) :=
  foldl_log connected_perform calls {}

theorem answerAt_execute {n : Nat} {s : Statement} (h : statementAt calls n = some s) :
    answerAt calls n = some (match (queue calls n).find? fun e => fits s e.2 with
      | some e => e.2.answer
      | none => .ok []) := by
  unfold statementAt at h
  unfold answerAt
  obtain ⟨⟨clone, call⟩, hcall, hs⟩ := Option.bind_eq_some_iff.mp h
  cases call with
  | execute t =>
    obtain rfl : t = s := Option.some.inj hs
    rw [hcall, Option.bind_some]
    exact congrArg some (answer_execute (nodup_queue n) (entries_after n) t)
  | _ => cases hs

/-! ## delivery -/

/-- The call of number `n` is answered by the entry that the call of number `source n` added.  The log is the
statements in the order of the calls.  What is left of the script is what was added and answered no call so far, in the
order of its addition, and the first of it that fits a statement answers it; if none fits, there are no rows.  No entry
answers twice, and before an entry answers, those with the same opening that were added earlier have answered. -/
structure Delivers (source : Nat → Option Nat) (calls : List (κ × ScriptCall)) : Prop where
  log : ∀ n, (after (calls.take n)).executed = (calls.take n).filterMap (·.2.statement?)
  grows : ∀ m n, m ≤ n → (after (calls.take m)).executed <+: (after (calls.take n)).executed
  connections : ∀ n, (after (calls.take n)).connected = (calls.take n).filterMap (·.2.url?)
  conserved : ∀ n, (after (calls.take n)).entries = (unused source calls n).map Prod.snd
  answered : ∀ n m, source n = some m → ∃ s e, statementAt calls n = some s ∧ (m, e) ∈ unused source calls n ∧
    fits s e = true ∧ answerAt calls n = some e.answer ∧
    ∀ other ∈ unused source calls n, fits s other.2 = true → m ≤ other.1
  unanswered : ∀ n s, statementAt calls n = some s → source n = none →
    answerAt calls n = some (.ok []) ∧ ∀ other ∈ unused source calls n, fits s other.2 = false
  once : ∀ i j m, source i = some m → source j = some m → i = j
  inOrder : ∀ n m k e f, source n = some k → entryAt calls m = some e → entryAt calls k = some f →
    e.opening = f.opening → m < k → ∃ i < n, source i = some m

theorem mem_unused {source : Nat → Option Nat} {n m : Nat} {e : ScriptEntry} :
    (m, e) ∈ unused source calls n ↔ (m < n ∧ entryAt calls m = some e) ∧ ∀ k < n, source k ≠ some m := by
  unfold unused
  rw [List.mem_filter, mem_added, decide_eq_true_iff]

theorem answered_of_source {n m : Nat} (h : source calls n = some m) : ∃ s e, statementAt calls n = some s ∧
    (m, e) ∈ unused (source calls) calls n ∧ fits s e = true ∧ answerAt calls n = some e.answer ∧
    ∀ other ∈ unused (source calls) calls n, fits s other.2 = true → m ≤ other.1 := by
  obtain ⟨s, e, hs, hfind⟩ := exists_of_source h
  have hanswer := answerAt_execute hs
  rw [hfind] at hanswer
  obtain ⟨hfits, front, back, hqueue, hfront⟩ := List.find?_eq_some_iff_append.mp hfind
  rw [← queue_eq_unused]
  refine ⟨s, e, hs, List.mem_of_find?_eq_some hfind, hfits, hanswer, ?_⟩
  -- the queue is in the order of the numbers, and what is in front of the first entry that fits does not fit
  intro other hother hother_fits
  rw [hqueue] at hother
  have hpairwise := (pairwise_added calls n).sublist (queue_sublist n)
  rw [hqueue] at hpairwise
  rcases List.mem_append.mp hother with hmem | hmem
  · have hnot := hfront other hmem
    rw [hother_fits] at hnot
    exact absurd hnot (by decide)
  · rcases List.mem_cons.mp hmem with rfl | hmem
    · exact Nat.le_refl _
    · exact Nat.le_of_lt ((List.pairwise_cons.mp (List.pairwise_append.mp hpairwise).2.1).1 other hmem)

theorem unanswered_of_source {n : Nat} {s : Statement} (hs : statementAt calls n = some s)
    (h : source calls n = none) : answerAt calls n = some (.ok []) ∧
      ∀ other ∈ unused (source calls) calls n, fits s other.2 = false := by
  unfold source at h
  rw [hs] at h
  have hfind : (queue calls n).find? (fun e => fits s e.2) = none := Option.map_eq_none_iff.mp h
  have hanswer := answerAt_execute hs
  rw [hfind] at hanswer
  rw [← queue_eq_unused]
  refine ⟨hanswer, fun other hother => ?_⟩
  exact Bool.eq_false_iff.mpr (List.find?_eq_none.mp hfind other hother)

theorem source_injective {i j m : Nat} (hi : source calls i = some m) (hj : source calls j = some m) : i = j := by
  obtain ⟨-, e, -, he, -⟩ := answered_of_source hi
  obtain ⟨-, f, -, hf, -⟩ := answered_of_source hj
  have hbefore := (mem_unused.mp hf).2 i
  have hafter := (mem_unused.mp he).2 j
  rcases Nat.lt_trichotomy i j with hlt | heq | hlt
  · exact absurd hi (hbefore hlt)
  · exact heq
  · exact absurd hj (hafter hlt)

theorem fits_congr {e f : ScriptEntry} (h : e.opening = f.opening) (s : Statement) : fits s e = fits s f := by
  unfold fits
  rw [h]

theorem exists_source_of_lt {n m k : Nat} {e f : ScriptEntry} (hk : source calls n = some k)
    (he : entryAt calls m = some e) (hf : entryAt calls k = some f) (hopening : e.opening = f.opening)
    (hmk : m < k) : ∃ i < n, source calls i = some m := by
  by_contra hnone
  obtain ⟨s, f', -, hmem, hfits, -, hfirst⟩ := answered_of_source hk
  obtain ⟨⟨hkn, hf'⟩, -⟩ := mem_unused.mp hmem
  obtain rfl : f = f' := Option.some.inj (hf.symm.trans hf')
  -- the earlier entry would still be there, and it fits as well
  have hunused : ∀ i < n, source calls i ≠ some m := fun i hi hm => hnone ⟨i, hi, hm⟩
  have hearlier : (m, e) ∈ unused (source calls) calls n := mem_unused.mpr ⟨⟨Nat.lt_trans hmk hkn, he⟩, hunused⟩
  have hle := hfirst (m, e) hearlier (by rw [fits_congr hopening, hfits])
  exact absurd hmk (Nat.not_lt.mpr hle)

/-- **No answer of a script is lost, given twice or given to another statement.**  Whatever the order in which the
clones make their calls, there is an entry for every statement that is answered with one, such that all statements are
answered as `Delivers` says. -/
theorem delivers (calls : List (κ × ScriptCall)) : ∃ source, Delivers source calls :=
  ⟨source calls,
    { log := fun n => executed_after _
      grows := by
        intro m n hmn
        rw [executed_after, executed_after]
        exact (List.take_prefix_take_left hmn).filterMap _
      connections := fun n => connected_after _
      conserved := by
        intro n
        rw [entries_after, queue_eq_unused]
      answered := fun n m h => answered_of_source h
      unanswered := fun n s hs h => unanswered_of_source hs h
      once := fun i j m hi hj => source_injective hi hj
      inOrder := fun n m k e f hk he hf hopening hmk => exists_source_of_lt hk he hf hopening hmk }⟩

end Script

end TableAlgebra
