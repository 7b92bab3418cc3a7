import TableAlgebra.Config.DotEnv

/-!
# What a variable file sets

A variable file gives values to variables that are not set, and of two lines for one variable the first counts.  So
after it every variable has the value it had, or else that of the first assignment in the file.  Each line is read
with the values that the variables have by then; those that the reader keeps for itself are among them.

* `DotEnv.assignments`        the assignments of a file, in order;
* `Environment.Extended`      the variables with those of a file that were not set;
* `DotEnv.Reading`, `Reading.assign`   where the reading of a file stands, and what an assignment does to it;
* `extended_withFile`         what reading a file does;
* `find?_withFile_of_some`    a variable that is set keeps its value.
-/

namespace TableAlgebra

namespace DotEnv

/-- The assignments of the lines, behind those `found` before them, up to a line that is not understood.  In a value
a name stands for the variable that is set, and else for the first assignment of that name. -/
def assignments (env : Environment) (found : List (String × String)) :
    List (Option (List Char)) → List (String × String)
  | [] => found
  | none :: _ => found
  | some line :: lines =>
    let value := fun name => ((env.find? name).or (found.lookup name)).getD ""
    match readAssignment? value line with
    | none => found
    | some none => assignments env found lines
    | some (some assignment) => assignments env (found ++ [assignment]) lines

/-- The reading of a file, begun with the variables `env`, has come to the variables `current`: those set by the
assignments found so far, with the reader's `own` values among them. -/
structure Reading (env : Environment) (found : List (String × String)) (current own : Environment) : Prop where
  find?_eq : ∀ name, current.find? name = (env.find? name).or (found.lookup name)
  own_set : ∀ name, own.find? name ≠ none → current.find? name ≠ none

variable {env current own : Environment} {found : List (String × String)}

theorem Reading.start (env : Environment) : Reading env [] env ∅ where
  find?_eq _ := Option.or_none.symm
  own_set _ h := absurd rfl h

/-- the reader's own values never come into play -/
theorem Reading.value_eq (h : Reading env found current own) (name : String) :
    (current.find? name).or (own.find? name) = (env.find? name).or (found.lookup name) := by
  rw [← h.find?_eq]
  cases hcurrent : current.find? name with
  | some text => rfl
  | none =>
    rw [Option.none_or]
    exact Classical.not_not.mp fun hown => h.own_set name hown hcurrent

theorem find?_assign (current : Environment) (key text name : String) :
    OrderedMap.find? (if current.contains key then current else current.insert key text) name
      = (current.find? name).or ([(key, text)].lookup name) := by
  rw [OrderedMap.lookup_entry_cons, List.lookup_nil]
  by_cases hname : name = key
  · subst hname
    rw [if_pos rfl]
    unfold OrderedMap.contains
    cases hcurrent : current.find? name with
    | some old => rw [Option.isSome_some, if_pos rfl, hcurrent, Option.some_or]
    | none =>
      rw [Option.isSome_none, if_neg Bool.false_ne_true, OrderedMap.find?_insert, if_pos rfl, Option.none_or]
  · rw [if_neg hname, Option.or_none]
    split
    · rfl
    · rw [OrderedMap.find?_insert, if_neg hname]

theorem Reading.assign (h : Reading env found current own) (key text : String) :
    Reading env (found ++ [(key, text)]) (if current.contains key then current else current.insert key text)
      (own.insert key text) where
  find?_eq name := by rw [find?_assign, h.find?_eq, List.lookup_append, Option.or_assoc]
  own_set name hown := by
    rw [OrderedMap.find?_insert] at hown
    rw [find?_assign, OrderedMap.lookup_entry_cons, List.lookup_nil]
    intro hnone
    obtain ⟨hcurrent, hnew⟩ := Option.or_eq_none_iff.mp hnone
    by_cases hname : name = key
    · rw [if_pos hname] at hnew
      cases hnew
    · rw [if_neg hname] at hown
      exact h.own_set name hown hcurrent

theorem find?_readLines (h : Reading env found current own) (lines : List (Option (List Char))) (name : String) :
    (readLines current own lines).find? name = (env.find? name).or ((assignments env found lines).lookup name) := by
  -- along the lines, with what was found so far in step with the variables that the reader has set
  induction lines generalizing found current own with
  | nil => exact h.find?_eq name
  | cons line lines ih =>
    cases line with
    | none => exact h.find?_eq name
    | some line =>
      have hvalue : (fun name => ((current.find? name).or (own.find? name)).getD "")
          = fun name => ((env.find? name).or (found.lookup name)).getD "" := funext fun name => by rw [h.value_eq]
      rw [readLines, assignments, hvalue]
      cases readAssignment? (fun name => ((env.find? name).or (found.lookup name)).getD "") line with
      | none => exact h.find?_eq name
      | some assignment =>
        cases assignment with
        | none => exact ih h
        | some assignment => exact ih (h.assign assignment.1 assignment.2)

end DotEnv

/-- `extended` holds the variables of `env`, and of those not set there the ones of the file -/
def Environment.Extended (env : Environment) (file : String) (extended : Environment) : Prop :=
  ∀ name, extended.find? name
    = (env.find? name).or ((DotEnv.assignments env [] (DotEnv.logicalLines file)).lookup name)

namespace Environment

variable {env : Environment}

theorem extended_withFile (env : Environment) (file : String) : env.Extended file (env.withFile file) :=
  DotEnv.find?_readLines (.start env) (DotEnv.logicalLines file)

example : (withFile (.ofList [("HOME", "club")]) "HOME=tmp\nLOG_DIR=$HOME\nLOG_DIR=logs\n").entries
    = [("HOME", "club"), ("LOG_DIR", "club")] := by
  decide +kernel

theorem find?_withFile_of_some {name text : String} (h : env.find? name = some text) (file : String) :
    (env.withFile file).find? name = some text := by
  rw [extended_withFile, h, Option.some_or]

end Environment

end TableAlgebra
