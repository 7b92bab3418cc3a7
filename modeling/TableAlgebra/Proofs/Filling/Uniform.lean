import TableAlgebra.Proofs.Filling.Operators
import TableAlgebra.Proofs.Filling.Tokens

/-!
# Outcomes that do not depend on the strings

A computation on filled data is followed for all fillings at once.  It is uniform if it fails whatever is
filled in, or succeeds whatever is filled in with results that one description covers; for texts the
description is a list of slots.  Uniformity is kept by the steps that the computations are made of, so a
compiler that is written with these steps is uniform.

* `Uniform`                      fails always, or is covered by one description;
* `Uniform.bind`, `Uniform.mapM`  steps one after the other, and a step for each element of a list;
* `Fits`                         a text is read as slots filled in.
-/

namespace TableAlgebra

/-- what is computed fails for every filling, or succeeds for every filling and is covered by one
description -/
def Uniform {ε α β : Type} (covers : (String → String) → β → α → Prop)
    (x : (String → String) → Except ε α) : Prop :=
  (∀ σ a, x σ ≠ .ok a) ∨ ∃ b, ∀ σ, ∃ a, x σ = .ok a ∧ covers σ b a

namespace Uniform

variable {ε α β γ δ : Type} {covers : (String → String) → β → α → Prop}
  {further : (String → String) → δ → γ → Prop} {x : (String → String) → Except ε α}

theorem ok {a : (String → String) → α} (b : β) (h : ∀ σ, covers σ b (a σ)) :
    Uniform covers fun σ => (.ok (a σ) : Except ε α) :=
  .inr ⟨b, fun σ => ⟨a σ, rfl, h σ⟩⟩

theorem error (e : (String → String) → ε) : Uniform covers fun σ => (.error (e σ) : Except ε α) :=
  .inl fun _ _ h => nomatch h

theorem bind {f : (String → String) → α → Except ε γ} (hx : Uniform covers x)
    (hf : ∀ (b : β) (a : (String → String) → α), (∀ σ, covers σ b (a σ)) →
      Uniform further fun σ => f σ (a σ)) : Uniform further fun σ => x σ >>= f σ := by
  rcases hx with hfail | ⟨b, h⟩
  · refine .inl fun σ c hc => ?_
    obtain ⟨a, ha, -⟩ := bind_eq_ok.mp hc
    exact hfail σ a ha
  · choose a hok hcovers using h
    have hstep : (fun σ => x σ >>= f σ) = fun σ => f σ (a σ) := by
      funext σ
      rw [hok]
      rfl
    rw [hstep]
    exact hf b a hcovers

theorem map {f : α → γ} (hx : Uniform covers x)
    (hf : ∀ b, ∃ d, ∀ σ a, covers σ b a → further σ d (f a)) :
    Uniform further fun σ => (x σ).map f := by
  have hbind : (fun σ => (x σ).map f) = fun σ => x σ >>= fun a => .ok (f a) := by
    funext σ
    cases x σ <;> rfl
  rw [hbind]
  refine hx.bind fun b a hb => ?_
  obtain ⟨d, hd⟩ := hf b
  exact ok d fun σ => hd σ (a σ) (hb σ)

/-- a choice by a condition on which the filling has no influence -/
theorem ite {y : (String → String) → Except ε α} {c : Prop} [Decidable c]
    (hx : c → Uniform covers x) (hy : ¬ c → Uniform covers y) :
    Uniform covers fun σ => if c then x σ else y σ := by
  by_cases hc : c
  · simpa only [if_pos hc] using hx hc
  · simpa only [if_neg hc] using hy hc

/-- a step for each element of a list; what every step says of its element holds of all of them -/
theorem mapM_and {ι : Type} {f : (String → String) → ι → Except ε α} {p : ι → Prop} {is : List ι}
    (h : ∀ i ∈ is, Uniform (fun σ b a => covers σ b a ∧ p i) fun σ => f σ i) :
    Uniform (fun σ bs as => List.Forall₂ (covers σ) bs as ∧ ∀ i ∈ is, p i) fun σ => is.mapM (f σ) := by
  induction is with
  | nil => exact ok [] fun σ => ⟨.nil, fun i hi => absurd hi List.not_mem_nil⟩
  | cons i is ih =>
    simp only [List.mapM_cons]
    refine bind (h i List.mem_cons_self) fun b a hb => ?_
    refine bind (ih fun j hj => h j (List.mem_cons_of_mem i hj)) fun bs as hbs => ?_
    exact ok (b :: bs) fun σ => ⟨.cons (hb σ).1 (hbs σ).1, List.forall_mem_cons.mpr ⟨(hb σ).2, (hbs σ).2⟩⟩

theorem mapM {ι : Type} {f : (String → String) → ι → Except ε α} {is : List ι}
    (h : ∀ i ∈ is, Uniform covers fun σ => f σ i) :
    Uniform (fun σ => List.Forall₂ (covers σ)) fun σ => is.mapM (f σ) := by
  have htrue : ∀ i ∈ is, Uniform (fun σ b a => covers σ b a ∧ True) fun σ => f σ i := by
    simpa only [and_true] using h
  simpa only [implies_true, and_true] using mapM_and htrue

end Uniform

/-! ## texts -/

/-- the text is read as the slots, filled in -/
def Fits (σ : String → String) (slots : List Slot) (text : String) : Prop :=
  Reads text (slots.map (Slot.fill σ))

/-- the slots of a text without places -/
def fixedSlots (tokens : List Token) : List Slot := tokens.map Slot.fixed

theorem fill_fixedSlots (σ : String → String) (tokens : List Token) :
    (fixedSlots tokens).map (Slot.fill σ) = tokens := by
  simp [fixedSlots, Function.comp_def, Slot.fill]

namespace Fits

variable {σ : String → String} {a b : String} {slots : List Slot} {tokens : List Token}

theorem fixed (h : Reads a tokens) : Fits σ (fixedSlots tokens) a := by
  rwa [Fits, fill_fixedSlots]

theorem after (h : Opens b tokens) (ha : Fits σ slots a) :
    Fits σ (fixedSlots tokens ++ slots) (b ++ a) := by
  rw [Fits, List.map_append, fill_fixedSlots]
  exact h.append ha

theorem before (ha : Fits σ slots a) (h : Ends b tokens) :
    Fits σ (slots ++ fixedSlots tokens) (a ++ b) := by
  rw [Fits, List.map_append, fill_fixedSlots]
  exact Reads.append ha h

theorem between {c : String} {more : List Slot} (ha : Fits σ slots a) (hb : Separates b tokens)
    (hc : Fits σ more c) : Fits σ (slots ++ fixedSlots tokens ++ more) (a ++ b ++ c) := by
  rw [Fits, List.map_append, List.map_append, fill_fixedSlots]
  exact (Reads.append_separator ha hb).append hc

theorem intercalate {separator : String} (h : Separates separator tokens) {items : List (List Slot)}
    {texts : List String} (hitems : List.Forall₂ (Fits σ) items texts) :
    Fits σ ((fixedSlots tokens).intercalate items) (separator.intercalate texts) := by
  rw [Fits, map_intercalate, fill_fixedSlots]
  refine reads_intercalate h ?_
  rw [List.forall₂_map_right_iff]
  exact hitems.flip

end Fits

end TableAlgebra
