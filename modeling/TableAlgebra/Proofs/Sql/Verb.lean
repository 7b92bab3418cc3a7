import TableAlgebra.Proofs.Sql.Definition

/-!
# The verb of a statement

The statement of a command begins with a verb that says what it does, and no command has the verb of another
kind of statement.

* `HasVerb`            a text begins with a verb;
* `Command.hasVerb`    the statement of a command begins with the verb of the command.
-/

namespace TableAlgebra

/-- the text is a verb, a blank and more -/
def HasVerb (verb text : String) : Prop := ∃ rest, text = verb ++ (" " ++ rest)

def Command.verb : Command → String
  | select _ _ => "select"
  | create _ => "create"
  | drop _ => "drop"
  | insert _ _ => "insert"
  | update _ _ _ => "update"
  | remove _ _ => "delete"

namespace HasVerb

variable {d : Dialect} {statement : Statement}

theorem append {verb text : String} (h : HasVerb verb text) (more : String) : HasVerb verb (text ++ more) := by
  obtain ⟨rest, rfl⟩ := h
  exact ⟨rest ++ more, by rw [String.append_assoc, String.append_assoc]⟩

theorem ne {verb text word : String} (h : HasVerb verb text)
    (hword : ∀ rest, word.toList ≠ verb.toList ++ ' ' :: rest) : text ≠ word := by
  obtain ⟨rest, rfl⟩ := h
  intro h
  refine hword rest.toList ?_
  rw [← h, String.toList_append, String.toList_append]
  rfl

theorem select (d : Dialect) (r : Relation) (rename : Bool) : HasVerb "select" (selectText d rename r) := by
  rw [selectText_eq]
  iterate 6 apply append
  exact ⟨"", rfl⟩

theorem create {r : Relation} (h : createStatement d r = .ok statement) :
    HasVerb "create" statement.sql := by
  unfold createStatement at h
  obtain ⟨name, -, h⟩ := bind_eq_ok.mp h
  obtain ⟨definitions, -, h⟩ := bind_eq_ok.mp h
  obtain rfl := Except.ok.inj h
  iterate 4 apply append
  exact ⟨"table ", rfl⟩

theorem drop {r : Relation} (h : dropStatement r = .ok statement) : HasVerb "drop" statement.sql := by
  unfold dropStatement at h
  obtain ⟨name, -, h⟩ := bind_eq_ok.mp h
  obtain rfl := Except.ok.inj h
  apply append
  exact ⟨"table if exists ", rfl⟩

theorem insert {r : Relation} {rows : List Row} (h : insertStatement d r rows = .ok statement) :
    HasVerb "insert" statement.sql := by
  unfold insertStatement at h
  obtain ⟨name, -, h⟩ := bind_eq_ok.mp h
  cases rows with
  | nil => exact nomatch h
  | cons first rows =>
    simp only at h
    split at h
    · exact nomatch h
    split at h
    · exact nomatch h
    obtain ⟨tuples, -, h⟩ := bind_eq_ok.mp h
    obtain rfl := Except.ok.inj h
    iterate 7 apply append
    exact ⟨"into ", rfl⟩

theorem update {r : Relation} {row : Row} {condition : Option Expr}
    (h : updateStatement d r row condition = .ok statement) : HasVerb "update" statement.sql := by
  unfold updateStatement at h
  obtain ⟨name, -, h⟩ := bind_eq_ok.mp h
  simp only at h
  split at h
  · exact nomatch h
  obtain ⟨assignments, -, h⟩ := bind_eq_ok.mp h
  obtain ⟨text, -, h⟩ := bind_eq_ok.mp h
  obtain rfl := Except.ok.inj h
  iterate 4 apply append
  exact ⟨"", rfl⟩

theorem remove {r : Relation} {condition : Option Expr} (h : removeStatement d r condition = .ok statement) :
    HasVerb "delete" statement.sql := by
  unfold removeStatement at h
  obtain ⟨name, -, h⟩ := bind_eq_ok.mp h
  obtain ⟨text, -, h⟩ := bind_eq_ok.mp h
  obtain rfl := Except.ok.inj h
  iterate 2 apply append
  exact ⟨"from ", rfl⟩

end HasVerb

/-- **The statement of a command begins with its verb.** -/
theorem Command.hasVerb {d : Dialect} {c : Command} {statement : Statement} (h : c.compile d = .ok statement) :
    HasVerb c.verb statement.sql := by
  cases c with
  | select r rename =>
    obtain rfl := Except.ok.inj h
    exact .select d r rename
  | create r => exact .create h
  | drop r => exact .drop h
  | insert r rows => exact .insert h
  | update r row condition => exact .update h
  | remove r condition => exact .remove h

end TableAlgebra
