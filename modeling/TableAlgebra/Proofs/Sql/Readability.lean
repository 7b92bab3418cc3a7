import TableAlgebra.Proofs.Number.Whole
import TableAlgebra.Proofs.Sql.Legible
import TableAlgebra.Proofs.Sql.Reading
import TableAlgebra.Sql.Command

/-!
# Unique readability of queries

Two derived relations with the same query are the same up to what a query does not show: the types of
nodes, the options and serial numbers of attributes, a truth value against the integer it is written as,
and the output names of the relations in membership tests.

* `Expr.Alike`, `Relation.Alike`        the same trees up to these differences;
* `Expr.base`, `Expr.tests`             an expression without the membership tests made of it last, and these;
* `Expr.Readable`, `Relation.Readable`  an expression and a query are told from others by their tokens;
* `Relation.Derived.unique_readability` two derived relations with the same query are alike.
-/

namespace TableAlgebra

/-! ## the same trees -/

/-- two literals of the same text, or a truth value and the integer it is written as -/
inductive Literal.Alike : Literal → Literal → Prop where
  | text {l m : Literal} (same : l.text = m.text) : Alike l m
  | boolean (b : Bool) : Alike (.boolean b) (.integer (if b then 1 else 0))
  | integer (b : Bool) : Alike (.integer (if b then 1 else 0)) (.boolean b)

mutual

/-- the same tree: the same operators and functions in the same places, and alike leaves and subselects -/
inductive Expr.Alike : Expr → Expr → Prop where
  | literal {l m : Literal} (same : l.Alike m) : Expr.Alike (.literal l) (.literal m)
  | attr {a b : Attribute} (table : a.table? = b.table?) (name : a.name = b.name) :
    Expr.Alike (.attr a) (.attr b)
  | binary {op : BinaryOp} {t u : DataType} {l r l' r' : Expr} (left : Expr.Alike l l')
    (right : Expr.Alike r r') : Expr.Alike (.binary op t l r) (.binary op u l' r')
  | aggregate {f : AggregateFunc} {t u : DataType} {e e' : Expr} (operand : Expr.Alike e e') :
    Expr.Alike (.aggregate f t e) (.aggregate f u e')
  | member {t u : DataType} {e e' : Expr} {r r' : Relation} (operand : Expr.Alike e e')
    (relation : Relation.Alike r r') : Expr.Alike (.member t e r) (.member u e' r')

/-- the same sources, and as many columns, restrictions, groups and orders, alike one by one; the output
names are left open -/
inductive Relation.Alike : Relation → Relation → Prop where
  | intro {r s : Relation} (sources : r.sources = s.sources)
    (columns : List.Forall₂ Expr.Alike (r.columns.map Column.expr) (s.columns.map Column.expr))
    (restrictions : List.Forall₂ Expr.Alike r.restrictions s.restrictions)
    (groups : List.Forall₂ Expr.Alike r.groups s.groups)
    (orders : List.Forall₂ Expr.Alike r.orders s.orders) : Relation.Alike r s

end

/-! ## membership tests at the end of an expression -/

namespace Expr

/-- the expression under all the membership tests that were made of it last -/
def base : Expr → Expr
  | member _ e _ => e.base
  | e => e

/-- the relations of these tests, the last one first -/
def tests : Expr → List Relation
  | member _ e r => r :: e.tests
  | _ => []

/-- what a membership test adds to the tokens of its operand -/
def testTokens (r : Relation) : List Token :=
  .symbol "(" :: slotTokens (selectSlots false r) ++ [.symbol ")"]

theorem tokens_eq (qualified : Bool) (e : Expr) : slotTokens (exprSlots qualified e)
    = slotTokens (exprSlots qualified e.base)
      ++ e.tests.reverse.flatMap fun r => .word "in" :: testTokens r := by
  cases e with
  | member _ e r =>
    rw [exprSlots, slotTokens_append, slotTokens_append, tokens_eq qualified e, base, tests]
    simp [slotTokens_cons, slotTokens_nil, testTokens]
  | _ => simp [base, tests]

theorem base_of_tests_nil : (e : Expr) → e.tests = [] → e.base = e
  | literal _, _ => rfl
  | attr _, _ => rfl
  | binary _ _ _ _, _ => rfl
  | aggregate _ _ _, _ => rfl
  | member _ _ _, h => nomatch h

theorem alike_of_tests_nil {e e' : Expr} (he : e.tests = []) (hbase : e.base.Alike e'.base)
    (htests : List.Forall₂ Relation.Alike e.tests e'.tests) : e.Alike e' := by
  rw [he, List.forall₂_nil_left_iff] at htests
  rwa [base_of_tests_nil e he, base_of_tests_nil e' htests] at hbase

theorem alike_of_base : (e e' : Expr) → e.base.Alike e'.base →
    List.Forall₂ Relation.Alike e.tests e'.tests → e.Alike e'
  | literal _, _, hbase, htests => alike_of_tests_nil rfl hbase htests
  | attr _, _, hbase, htests => alike_of_tests_nil rfl hbase htests
  | binary _ _ _ _, _, hbase, htests => alike_of_tests_nil rfl hbase htests
  | aggregate _ _ _, _, hbase, htests => alike_of_tests_nil rfl hbase htests
  | member _ e _, e', hbase, htests => by
    cases e' with
    | member _ e' _ =>
      rw [tests, tests, List.forall₂_cons] at htests
      exact .member (alike_of_base e e' hbase htests.2) htests.1
    | _ => exact nomatch htests

end Expr

/-! ## literals -/

/-- the tokens of a literal are a numeral, a negative one, or a string, and say what its text is -/
theorem Literal.slotTokens_cases (l : Literal) :
    (∃ text, slotTokens l.slots = [.numeral text] ∧ ∀ d, l.sqlText d = text) ∨
      (∃ text, slotTokens l.slots = [.symbol "-", .numeral text] ∧ ∀ d, l.sqlText d = "-" ++ text) ∨
      ∃ text, slotTokens l.slots = [.string text] ∧ ∀ d, l.sqlText d = quote text := by
  have hnumeral : ∀ text : String,
      (∃ digits, slotTokens (numeralSlots text) = [.numeral digits] ∧ text = digits) ∨
        ∃ digits, slotTokens (numeralSlots text) = [.symbol "-", .numeral digits] ∧ text = "-" ++ digits := by
    intro text
    unfold numeralSlots
    split
    · rename_i digits htext
      refine .inr ⟨String.ofList digits, rfl, ?_⟩
      rw [← String.toList_inj, htext]
      simp
    · exact .inl ⟨text, rfl, rfl⟩
  cases l with
  | boolean b => exact .inl ⟨_, rfl, fun d => d.booleanLiteral_eq b⟩
  | integer i =>
    rcases hnumeral (toString i.toInt) with ⟨digits, htokens, htext⟩ | ⟨digits, htokens, htext⟩
    · exact .inl ⟨digits, htokens, fun _ => htext⟩
    · exact .inr (.inl ⟨digits, htokens, fun _ => htext⟩)
  | number x =>
    rcases hnumeral x.text with ⟨digits, htokens, htext⟩ | ⟨digits, htokens, htext⟩
    · exact .inl ⟨digits, htokens, fun _ => htext⟩
    · exact .inr (.inl ⟨digits, htokens, fun _ => htext⟩)
  | string s => exact .inr (.inr ⟨s, rfl, fun _ => rfl⟩)
  | label v => exact .inr (.inr ⟨v.label, rfl, fun _ => rfl⟩)

theorem Literal.tokens_cancel {l m : Literal} {r s : List Token}
    (h : slotTokens l.slots ++ r = slotTokens m.slots ++ s) : (∀ d, l.sqlText d = m.sqlText d) ∧ r = s := by
  rcases l.slotTokens_cases with ⟨t, hl, htext⟩ | ⟨t, hl, htext⟩ | ⟨t, hl, htext⟩ <;>
    rcases m.slotTokens_cases with ⟨u, hm, hu⟩ | ⟨u, hm, hu⟩ | ⟨u, hm, hu⟩ <;>
    rw [hl, hm] at h <;> simp_all

theorem Literal.tokens_ne_word {l : Literal} {w : String} {r s : List Token} :
    slotTokens l.slots ++ r ≠ .word w :: s := by
  rcases l.slotTokens_cases with ⟨t, hl, -⟩ | ⟨t, hl, -⟩ | ⟨t, hl, -⟩ <;> rw [hl] <;> simp

theorem Literal.tokens_ne_parenthesis {l : Literal} {r s : List Token} :
    slotTokens l.slots ++ r ≠ .symbol "(" :: s := by
  rcases l.slotTokens_cases with ⟨t, hl, -⟩ | ⟨t, hl, -⟩ | ⟨t, hl, -⟩ <;> rw [hl] <;> simp

theorem int64_of_toString {i : Int64} {n : Nat} (h : toString i.toInt = toString n) : i.toInt = n := by
  cases hi : i.toInt with
  | ofNat m =>
    rw [hi] at h
    exact congrArg Int.ofNat (Binary64.toString_inj h)
  | negSucc m =>
    rw [hi] at h
    have hminus : "-" ++ toString (m + 1) = toString n := h
    rw [← String.toList_inj, String.toList_append] at hminus
    have hmem : '-' ∈ (toString n).toList := by
      rw [← hminus]
      exact List.mem_cons_self
    exact absurd (isDigit_of_mem_toString hmem) (by decide)

theorem Literal.cases_of_boolean {d : Dialect} {b : Bool} {m : Literal} (hm : m.Made)
    (h : d.booleanLiteral b = m.sqlText d) : m = .boolean b ∨ m = .integer (if b then 1 else 0) := by
  rw [d.booleanLiteral_eq] at h
  cases m with
  | boolean c =>
    replace h : _ = d.booleanLiteral c := h
    rw [d.booleanLiteral_eq] at h
    cases b <;> cases c <;> first | exact .inl rfl | exact absurd h (by decide)
  | integer i =>
    right
    have htext : toString i.toInt = toString (if b then 1 else 0) := by
      cases b <;> exact h.symm
    have hi := int64_of_toString htext
    rw [Literal.integer.injEq, ← Int64.toInt_inj, hi]
    cases b <;> rfl
  | number x =>
    obtain ⟨hfinite, hint⟩ := hm.number
    obtain ⟨hzero, hone⟩ := Binary64.text_ne_of_toInt64?_eq_none hfinite hint
    cases b with
    | false => exact absurd h.symm hzero
    | true => exact absurd h.symm hone
  | string s =>
    have hquote := congrArg String.toList h
    cases b <;> exact absurd (List.cons.inj (hquote.trans (toList_quote s))).1 (by decide)
  | label v =>
    have hquote := congrArg String.toList h
    cases b <;> exact absurd (List.cons.inj (hquote.trans (toList_quote v.label))).1 (by decide)

theorem Literal.alike_of_sqlText {d : Dialect} {l m : Literal} (hl : l.Made) (hm : m.Made)
    (h : l.sqlText d = m.sqlText d) : l.Alike m := by
  by_cases hb : ∃ b, l = .boolean b
  · obtain ⟨b, rfl⟩ := hb
    rcases Literal.cases_of_boolean hm h with rfl | rfl
    · exact .text rfl
    · exact .boolean b
  · by_cases hc : ∃ b, m = .boolean b
    · obtain ⟨b, rfl⟩ := hc
      rcases Literal.cases_of_boolean hl h.symm with rfl | rfl
      · exact .text rfl
      · exact .integer b
    · have hself : ∀ k : Literal, (¬ ∃ b, k = .boolean b) → k.sqlText d = k.text := by
        intro k hk
        cases k with
        | boolean b => exact absurd ⟨b, rfl⟩ hk
        | _ => rfl
      exact .text ((hself l hb).symm.trans (h.trans (hself m hc)))

/-! ## attributes -/

/-- the tokens that would go on with an expression that is no membership test -/
def stoppers : List Token := [.symbol ".", .symbol "("]

namespace Attribute

variable {a b : Attribute} {table other w : String} {p q : Bool} {r s : List Token}

theorem slotTokens_slots (h : a.table? = some table) (q : Bool) : slotTokens (a.slots q)
    = if q then [.word table, .symbol ".", .word a.name] else [.word a.name] := by
  unfold slots
  rw [h]
  cases q <;> rfl

theorem tokens_ne_call (h : a.table? = some table) (hr : Avoids stoppers r) :
    slotTokens (a.slots q) ++ r ≠ .word w :: .symbol "(" :: s := by
  rw [slotTokens_slots h]
  intro heq
  cases q with
  | true => simp at heq
  | false =>
    have hcall : r = .symbol "(" :: s := (List.cons.inj heq).2
    rw [hcall] at hr
    exact absurd (by decide) hr.not_mem

theorem tokens_ne_parenthesis (h : a.table? = some table) :
    slotTokens (a.slots q) ++ r ≠ .symbol "(" :: s := by
  rw [slotTokens_slots h]
  cases q <;> simp

/-- an attribute is cut off from what does not go on with it; its table shows where it is written -/
theorem tokens_cancel (ha : a.table? = some table) (hb : b.table? = some other)
    (hr : Avoids stoppers r) (hs : Avoids stoppers s)
    (h : slotTokens (a.slots p) ++ r = slotTokens (b.slots q) ++ s) :
    a.name = b.name ∧ (p = true → table = other) ∧ r = s := by
  rw [slotTokens_slots ha, slotTokens_slots hb] at h
  cases p with
  | true =>
    cases q with
    | true =>
      simp only [if_true, List.cons_append, List.nil_append, List.cons.injEq, Token.word.injEq,
        true_and] at h
      exact ⟨h.2.1, fun _ => h.1, h.2.2⟩
    | false =>
      have hpoint : .symbol "." :: _ = s := (List.cons.inj h).2
      rw [← hpoint] at hs
      exact absurd (by decide) hs.not_mem
  | false =>
    cases q with
    | true =>
      have hpoint : r = .symbol "." :: _ := (List.cons.inj h).2
      rw [hpoint] at hr
      exact absurd (by decide) hr.not_mem
    | false => exact ⟨Token.word.inj (List.cons.inj h).1, nofun, (List.cons.inj h).2⟩

end Attribute

theorem BinaryOp.slot_injective {op op' : BinaryOp} (h : op.slot.fill id = op'.slot.fill id) :
    op = op' := by
  cases op with
  | compare op => cases op <;> (cases op' with | _ op' => cases op' <;> first | rfl | (exact absurd h (by decide)))
  | logic op => cases op <;> (cases op' with | _ op' => cases op' <;> first | rfl | (exact absurd h (by decide)))
  | arith op => cases op <;> (cases op' with | _ op' => cases op' <;> first | rfl | (exact absurd h (by decide)))

theorem BinaryOp.slot_not_mem_stoppers (op : BinaryOp) :
    op.slot.fill id ∉ Token.word "in" :: stoppers := by
  cases op with
  | compare op => cases op <;> decide
  | logic op => cases op <;> decide
  | arith op => cases op <;> decide

theorem AggregateFunc.name_injective {f g : AggregateFunc} (h : f.name = g.name) : f = g := by
  cases f <;> cases g <;> first | rfl | exact absurd h (by decide)

/-! ## expressions and queries -/

/-- a relation that reads tables and gives out columns, whose leaves belong to its sources and whose
literals a program can make -/
structure Relation.Scoped (r : Relation) : Prop where
  sources_ne_nil : r.sources ≠ []
  columns_ne_nil : r.columns ≠ []
  leaf : ∀ a ∈ r.leaves, ∃ table ∈ r.sources, a.table? = some table
  literal : ∀ l ∈ r.literals, l.Made

/-- everything nested in the relation, itself included, is scoped -/
def Relation.DeepScoped (r : Relation) : Prop := ∀ s, r.Nests s → s.Scoped

/-- an expression over the given sources, with scoped relations in its membership tests -/
abbrev Expr.Scoped (sources : List String) (e : Expr) : Prop :=
  e.All (fun a => ∃ table ∈ sources, a.table? = some table) Literal.Made Relation.DeepScoped

theorem Relation.DeepScoped.expr {r : Relation} (h : r.DeepScoped) {e : Expr} (he : e ∈ r.exprs) :
    e.Scoped r.sources where
  leaf a ha := (h r .refl).leaf a (List.mem_flatMap.mpr ⟨e, he, ha⟩)
  literal l hl := (h r .refl).literal l (List.mem_flatMap.mpr ⟨e, he, hl⟩)
  subselect _ hs t ht := h t (ht.of_subselect he hs)

/-- attributes are written with their tables where there are several sources -/
def qualifies (sources : List String) : Bool := decide (1 < sources.length)

namespace Expr

/-- An expression under no membership test is told from every other one by its tokens, whatever follows
that does not go on with it.  The sources come after the columns in a query, so that they are the same is
not known while the columns are read, and only what is concluded in the end depends on it. -/
def BaseReadable (e : Expr) : Prop :=
  ∀ src src' e' r s, e.Scoped src → e'.Scoped src' → e'.tests = [] → Avoids stoppers r →
    Avoids stoppers s →
    slotTokens (exprSlots (qualifies src) e) ++ r = slotTokens (exprSlots (qualifies src') e') ++ s →
    (src = src' → e.Alike e') ∧ r = s

/-- an expression is told from every other one by its tokens, if no membership test follows either -/
def Readable (e : Expr) : Prop :=
  ∀ src src' e' r s, e.Scoped src → e'.Scoped src' → Avoids (.word "in" :: stoppers) r →
    Avoids (.word "in" :: stoppers) s →
    slotTokens (exprSlots (qualifies src) e) ++ r = slotTokens (exprSlots (qualifies src') e') ++ s →
    (src = src' → e.Alike e') ∧ r = s

end Expr

/-- a query is told from every other one by its tokens, if nothing follows or a parenthesis is closed -/
def Relation.Readable (r : Relation) : Prop :=
  ∀ rename s t u, r.DeepScoped → s.DeepScoped → BeginsIn [.symbol ")"] t → BeginsIn [.symbol ")"] u →
    slotTokens (selectSlots rename r) ++ t = slotTokens (selectSlots rename s) ++ u →
    (r.Alike s ∧ (rename = true → r.keys = s.keys)) ∧ t = u

namespace Expr

variable {sources : List String}

theorem tests_base (e : Expr) : e.base.tests = [] := by
  cases e with
  | member _ e _ => exact tests_base e
  | _ => rfl

theorem Scoped.base : {e : Expr} → e.Scoped sources →
    e.base.Scoped sources ∧ ∀ r ∈ e.tests, r.DeepScoped
  | literal _, h => ⟨h, fun _ hr => absurd hr List.not_mem_nil⟩
  | attr _, h => ⟨h, fun _ hr => absurd hr List.not_mem_nil⟩
  | binary _ _ _ _, h => ⟨h, fun _ hr => absurd hr List.not_mem_nil⟩
  | aggregate _ _ _, h => ⟨h, fun _ hr => absurd hr List.not_mem_nil⟩
  | member _ _ _, h => ⟨(Scoped.base h.tested).1,
    List.forall_mem_cons.mpr ⟨h.relation, (Scoped.base h.tested).2⟩⟩

theorem testTokens_cancel {r s : Relation} {t u : List Token} (hread : r.Readable) (hr : r.DeepScoped)
    (hs : s.DeepScoped) (h : testTokens r ++ t = testTokens s ++ u) : r.Alike s ∧ t = u := by
  have hclose : ∀ v, BeginsIn [Token.symbol ")"] (.symbol ")" :: v) := by
    intro v w hw
    rw [← Option.some.inj hw]
    exact List.mem_cons_self
  have hselect : slotTokens (selectSlots false r) ++ .symbol ")" :: t
      = slotTokens (selectSlots false s) ++ .symbol ")" :: u := by
    simpa [testTokens] using h
  obtain ⟨⟨halike, -⟩, htu⟩ := hread false s _ _ hr hs (hclose t) (hclose u) hselect
  exact ⟨halike, (List.cons.inj htu).2⟩

/-- an expression is read by its base, and then by its membership tests -/
theorem readable_of_base {e : Expr} (hbase : e.base.BaseReadable) (htests : ∀ r ∈ e.tests, r.Readable) :
    e.Readable := by
  intro src src' e' r s he he' hr hs h
  have hin : Token.word "in" ∉ stoppers := by decide
  have hsub : ∀ t ∈ stoppers, t ∈ Token.word "in" :: stoppers := fun t => List.mem_cons_of_mem _
  rw [tokens_eq _ e, tokens_eq _ e', List.append_assoc, List.append_assoc] at h
  obtain ⟨halike, hrest⟩ := hbase src src' e'.base _ _ he.base.1 he'.base.1 (tests_base e')
    (avoids_flatMap hin (hr.mono hsub)) (avoids_flatMap hin (hs.mono hsub)) h
  have hcancel : Cancels stoppers Relation.Alike testTokens testTokens e.tests.reverse e'.tests.reverse := by
    intro x hx y hy t u _ _ heq
    rw [List.mem_reverse] at hx hy
    exact testTokens_cancel (htests x hx) (he.base.2 x hx) (he'.base.2 y hy) heq
  obtain ⟨htests, hrs⟩ := flatMap_cancel hin hcancel hr hs hrest
  exact ⟨fun hsrc => alike_of_base e e' (halike hsrc) (List.forall₂_reverse_iff.mp htests), hrs⟩

theorem baseReadable_literal (l : Literal) : (literal l).BaseReadable := by
  intro src src' e' r s he he' htests hr hs h
  cases e' with
  | literal m =>
    rw [exprSlots, exprSlots] at h
    obtain ⟨htext, hrs⟩ := Literal.tokens_cancel h
    have hl := he.literal l (List.mem_singleton_self l)
    have hm := he'.literal m (List.mem_singleton_self m)
    exact ⟨fun _ => .literal (Literal.alike_of_sqlText hl hm (htext .sqlite)), hrs⟩
  | attr b =>
    obtain ⟨table, -, hb⟩ := he'.leaf b (List.mem_singleton_self b)
    rw [exprSlots, exprSlots, Attribute.slotTokens_slots hb] at h
    split at h
    · exact absurd h Literal.tokens_ne_word
    · exact absurd h Literal.tokens_ne_word
  | binary op t l' r' =>
    rw [exprSlots, exprSlots] at h
    exact absurd h Literal.tokens_ne_parenthesis
  | aggregate f t e' =>
    rw [exprSlots, exprSlots] at h
    exact absurd h Literal.tokens_ne_word
  | member t e' r' => cases htests

theorem baseReadable_attr (a : Attribute) : (attr a).BaseReadable := by
  intro src src' e' r s he he' htests hr hs h
  obtain ⟨table, htable, ha⟩ := he.leaf a (List.mem_singleton_self a)
  cases e' with
  | literal m =>
    rw [exprSlots, exprSlots, Attribute.slotTokens_slots ha] at h
    split at h
    · exact absurd h.symm Literal.tokens_ne_word
    · exact absurd h.symm Literal.tokens_ne_word
  | attr b =>
    obtain ⟨other, hother, hb⟩ := he'.leaf b (List.mem_singleton_self b)
    rw [exprSlots, exprSlots] at h
    obtain ⟨hname, hqualified, hrs⟩ := Attribute.tokens_cancel ha hb hr hs h
    refine ⟨fun hsrc => .attr ?_ hname, hrs⟩
    subst hsrc
    rw [ha, hb]
    by_cases hlen : 1 < src.length
    · rw [hqualified (by simpa [qualifies] using hlen)]
    · -- a bare attribute is one of the only source
      obtain ⟨only, rfl⟩ : ∃ only, src = [only] := by
        refine List.length_eq_one_iff.mp ?_
        have := List.length_pos_of_mem htable
        omega
      rw [List.mem_singleton.mp htable, List.mem_singleton.mp hother]
  | binary op t l' r' =>
    rw [exprSlots, exprSlots] at h
    exact absurd h (Attribute.tokens_ne_parenthesis ha)
  | aggregate f t e' =>
    rw [exprSlots, exprSlots] at h
    exact absurd h (Attribute.tokens_ne_call ha hr)
  | member t e' r' => cases htests

theorem baseReadable_binary (op : BinaryOp) (t : DataType) {l r : Expr} (hl : l.Readable)
    (hr : r.Readable) : (binary op t l r).BaseReadable := by
  intro src src' e' v w he he' htests hv hw h
  have hclose : ∀ x, Avoids (.word "in" :: stoppers) (Token.symbol ")" :: x) :=
    fun x => avoids_cons (by decide)
  cases e' with
  | literal m =>
    rw [exprSlots, exprSlots] at h
    exact absurd h.symm Literal.tokens_ne_parenthesis
  | attr b =>
    obtain ⟨other, -, hb⟩ := he'.leaf b (List.mem_singleton_self b)
    rw [exprSlots, exprSlots] at h
    exact absurd h.symm (Attribute.tokens_ne_parenthesis hb)
  | binary op' t' l' r' =>
    simp only [exprSlots, slotTokens_cons, slotTokens_append, slotTokens_nil, List.cons_append,
      List.append_assoc, List.cons.injEq, true_and, List.nil_append, Slot.fill_symbol] at h
    obtain ⟨hleft, hrest⟩ := hl src src' l' _ _ he.left he'.left
      (avoids_cons op.slot_not_mem_stoppers) (avoids_cons op'.slot_not_mem_stoppers) h
    obtain ⟨hop, hrest⟩ := List.cons.inj hrest
    obtain ⟨hright, hend⟩ := hr src src' r' _ _ he.right he'.right (hclose v) (hclose w) hrest
    have hop : op = op' := BinaryOp.slot_injective hop
    subst hop
    exact ⟨fun hsrc => .binary (hleft hsrc) (hright hsrc), (List.cons.inj hend).2⟩
  | aggregate f t' e' =>
    rw [exprSlots, exprSlots] at h
    cases (List.cons.inj h).1
  | member t' e' r' => cases htests

theorem baseReadable_aggregate (f : AggregateFunc) (t : DataType) {e : Expr} (hread : e.Readable) :
    (aggregate f t e).BaseReadable := by
  intro src src' e' v w he he' htests hv hw h
  have hclose : ∀ x, Avoids (.word "in" :: stoppers) (Token.symbol ")" :: x) :=
    fun x => avoids_cons (by decide)
  cases e' with
  | literal m =>
    rw [exprSlots, exprSlots] at h
    exact absurd h.symm Literal.tokens_ne_word
  | attr b =>
    obtain ⟨other, -, hb⟩ := he'.leaf b (List.mem_singleton_self b)
    rw [exprSlots, exprSlots] at h
    exact absurd h.symm (Attribute.tokens_ne_call hb hw)
  | binary op' t' l' r' =>
    rw [exprSlots, exprSlots] at h
    cases (List.cons.inj h).1
  | aggregate g t' e' =>
    simp only [exprSlots, slotTokens_cons, slotTokens_append, slotTokens_nil, List.cons_append,
      List.append_assoc, List.cons.injEq, true_and, List.nil_append, Slot.fill_symbol, Slot.fill_word,
      Token.word.injEq] at h
    obtain ⟨hname, h⟩ := h
    obtain ⟨hoperand, hrest⟩ := hread src src' e' _ _ he.operand he'.operand (hclose v) (hclose w) h
    have hfg : f = g := AggregateFunc.name_injective hname
    subst hfg
    exact ⟨fun hsrc => .aggregate (hoperand hsrc), (List.cons.inj hrest).2⟩
  | member t' e' r' => cases htests

/-! ### lists of expressions -/

variable {src src' : List String}

theorem cancels_exprs {es es' : List Expr} (hread : ∀ e ∈ es, e.Readable)
    (hes : ∀ e ∈ es, e.Scoped src) (hes' : ∀ e ∈ es', e.Scoped src') :
    Cancels (.word "in" :: stoppers) (fun e e' => src = src' → e.Alike e')
      (fun e => slotTokens (exprSlots (qualifies src) e))
      (fun e => slotTokens (exprSlots (qualifies src') e)) es es' :=
  fun e he e' he' r s hr hs h => hread e he src src' e' r s (hes e he) (hes' e' he') hr hs h

end Expr

namespace Column

variable {src src' : List String}

def tokens (qualified rename : Bool) (c : Column) : List Token :=
  slotTokens (exprSlots qualified c.expr ++ aliasSlots rename c.key c.expr)

/-- what cannot follow an output column -/
def stoppers : List Token := .word "as" :: .word "in" :: TableAlgebra.stoppers

theorem avoids_alias {rename : Bool} {key : String} {e : Expr} {r : List Token}
    (hr : Avoids stoppers r) :
    Avoids (.word "in" :: TableAlgebra.stoppers) (slotTokens (aliasSlots rename key e) ++ r) := by
  unfold aliasSlots
  split
  · exact avoids_cons (by decide)
  · exact hr.mono fun t => List.mem_cons_of_mem _

/-- the names that two columns of alike expressions are given -/
theorem key_eq_of_alias {key key' : String} {e e' : Expr} {r s : List Token} (hr : Avoids stoppers r)
    (hs : Avoids stoppers s)
    (h : slotTokens (aliasSlots true key e) ++ r = slotTokens (aliasSlots true key' e') ++ s) :
    (e.Alike e' → key = key') ∧ r = s := by
  unfold aliasSlots at h
  cases hb : e.bears key with
  | false =>
    cases hb' : e'.bears key' with
    | false =>
      rw [hb, hb'] at h
      simp only [slotTokens_cons, slotTokens_nil, Bool.not_false, Bool.and_self, if_true, Slot.fill_word,
        List.cons_append, List.nil_append, List.cons.injEq, Token.word.injEq, true_and] at h
      exact ⟨fun _ => h.1, h.2⟩
    | true =>
      rw [hb, hb'] at h
      have has : .word "as" :: _ = s := h
      rw [← has] at hs
      exact absurd List.mem_cons_self hs.not_mem
  | true =>
    cases hb' : e'.bears key' with
    | false =>
      rw [hb, hb'] at h
      have has : r = .word "as" :: _ := h
      rw [has] at hr
      exact absurd List.mem_cons_self hr.not_mem
    | true =>
      rw [hb, hb'] at h
      refine ⟨fun halike => ?_, h⟩
      cases halike with
      | @attr a a' table name =>
        have hkey : a.name = key := by simpa [Expr.bears, Expr.attribute?] using hb
        have hkey' : a'.name = key' := by simpa [Expr.bears, Expr.attribute?] using hb'
        rw [← hkey, ← hkey', name]
      | _ => simp [Expr.bears, Expr.attribute?] at hb

/-- output columns are told from each other by their tokens, and so are their names if they are written -/
theorem cancels_columns (rename : Bool) {cs cs' : List Column} (hread : ∀ c ∈ cs, c.expr.Readable)
    (hcs : ∀ c ∈ cs, c.expr.Scoped src) (hcs' : ∀ c ∈ cs', c.expr.Scoped src') :
    Cancels stoppers
      (fun c c' => src = src' → c.expr.Alike c'.expr ∧ (rename = true → c.key = c'.key))
      (tokens (qualifies src) rename) (tokens (qualifies src') rename) cs cs' := by
  intro c hc c' hc' r s hr hs h
  unfold tokens at h
  rw [slotTokens_append, slotTokens_append, List.append_assoc, List.append_assoc] at h
  obtain ⟨halike, hrest⟩ := hread c hc src src' c'.expr _ _ (hcs c hc) (hcs' c' hc')
    (avoids_alias hr) (avoids_alias hs) h
  cases rename with
  | false => exact ⟨fun hsrc => ⟨halike hsrc, nofun⟩, hrest⟩
  | true =>
    obtain ⟨hkey, hrs⟩ := key_eq_of_alias hr hs hrest
    exact ⟨fun hsrc => ⟨halike hsrc, fun _ => hkey (halike hsrc)⟩, hrs⟩

end Column

namespace Relation

theorem tokens_clause (k : Slot) (ks : List Slot) (separator : Slot) (qualified : Bool) (es : List Expr) :
    slotTokens (clauseSlots (k :: ks) separator (exprsSlots qualified es))
      = clauseTokens (k.fill id) (slotTokens ks) (separator.fill id)
        (es.map fun e => slotTokens (exprSlots qualified e)) := by
  unfold clauseSlots clauseTokens
  rw [exprsSlots_eq_map]
  cases es with
  | nil => rfl
  | cons e es =>
    simp only [List.map_cons, List.isEmpty_cons, Bool.false_eq_true, if_false, slotTokens_append,
      slotTokens_intercalate, slotTokens_cons, slotTokens_nil, List.map_map]
    rfl

/-- the tokens of the clauses of a query, and what follows them -/
def clausesTokens (r : Relation) (rest : List Token) : List Token :=
  clauseTokens (.word "where") [] (.word "and")
      (r.restrictions.map fun e => slotTokens (exprSlots (qualifies r.sources) e))
    ++ (clauseTokens (.word "group") [.word "by"] (.symbol ",")
      (r.groups.map fun e => slotTokens (exprSlots (qualifies r.sources) e))
    ++ (clauseTokens (.word "order") [.word "by"] (.symbol ",")
      (r.orders.map fun e => slotTokens (exprSlots (qualifies r.sources) e)) ++ rest))

theorem tokens_select (rename : Bool) (r : Relation) (rest : List Token) :
    slotTokens (selectSlots rename r) ++ rest =
      .word "select" :: ([.symbol ","].intercalate
          (r.columns.map (Column.tokens (qualifies r.sources) rename))
        ++ .word "from" :: ([.symbol ","].intercalate (r.sources.map fun s => [.word s])
        ++ r.clausesTokens rest)) := by
  rw [selectSlots_eq]
  simp only [slotTokens_append, slotTokens_cons, slotTokens_intercalate, tokens_clause, slotTokens_nil,
    columnsSlots_eq_map, List.map_map, Slot.fill_word, Slot.fill_symbol, List.append_assoc,
    List.cons_append]
  rfl

theorem beginsIn_clauses (r : Relation) {rest : List Token} (h : BeginsIn [.symbol ")"] rest) :
    BeginsIn [.word "where", .word "group", .word "order", .symbol ")"] (r.clausesTokens rest) :=
  beginsIn_clause (beginsIn_clause (beginsIn_clause h _ _ _ _) _ _ _ _) _ _ _ _

theorem clauses_cancel {r s : Relation} (hread : ∀ e ∈ r.exprs, e.Readable) (hr : r.DeepScoped)
    (hs : s.DeepScoped) {t u : List Token} (ht : BeginsIn [.symbol ")"] t)
    (hu : BeginsIn [.symbol ")"] u) (h : r.clausesTokens t = s.clausesTokens u) :
    (r.sources = s.sources → List.Forall₂ Expr.Alike r.restrictions s.restrictions ∧
      List.Forall₂ Expr.Alike r.groups s.groups ∧ List.Forall₂ Expr.Alike r.orders s.orders) ∧
      t = u := by
  have hcancels : ∀ es es' : List Expr, (∀ e ∈ es, e ∈ r.exprs) → (∀ e ∈ es', e ∈ s.exprs) →
      Cancels (.word "in" :: stoppers) (fun e e' => r.sources = s.sources → e.Alike e')
        (fun e => slotTokens (exprSlots (qualifies r.sources) e))
        (fun e => slotTokens (exprSlots (qualifies s.sources) e)) es es' :=
    fun es es' hes hes' => Expr.cancels_exprs (fun e he => hread e (hes e he))
      (fun e he => hr.expr (hes e he)) (fun e he => hs.expr (hes' e he))
  have hrestrictions := hcancels r.restrictions s.restrictions
    (fun e he => mem_exprs.mpr (.inr (.inl he))) (fun e he => mem_exprs.mpr (.inr (.inl he)))
  have hgroups := hcancels r.groups s.groups
    (fun e he => mem_exprs.mpr (.inr (.inr (.inl he)))) (fun e he => mem_exprs.mpr (.inr (.inr (.inl he))))
  have horders := hcancels r.orders s.orders
    (fun e he => mem_exprs.mpr (.inr (.inr (.inr he)))) (fun e he => mem_exprs.mpr (.inr (.inr (.inr he))))
  -- each clause is cut off by the keywords after its own and by the parenthesis
  have hand : Token.word "and" ∉ Token.word "in" :: stoppers := by decide
  have hcomma : Token.symbol "," ∉ Token.word "in" :: stoppers := by decide
  have horder : ∀ {v : List Token}, BeginsIn [.symbol ")"] v → ∀ items,
      BeginsIn [.word "order", .symbol ")"]
        (clauseTokens (.word "order") [.word "by"] (.symbol ",") items ++ v) :=
    fun hv items => beginsIn_clause hv _ _ _ items
  have hgroup : ∀ {v : List Token}, BeginsIn [.word "order", .symbol ")"] v → ∀ items,
      BeginsIn [.word "group", .word "order", .symbol ")"]
        (clauseTokens (.word "group") [.word "by"] (.symbol ",") items ++ v) :=
    fun hv items => beginsIn_clause hv _ _ _ items
  obtain ⟨halike₁, h⟩ := clause_cancel hand hrestrictions
    ((hgroup (horder ht _) _).avoids (by decide)) ((hgroup (horder hu _) _).avoids (by decide)) h
  obtain ⟨halike₂, h⟩ := clause_cancel hcomma hgroups
    ((horder ht _).avoids (by decide)) ((horder hu _).avoids (by decide)) h
  obtain ⟨halike₃, h⟩ := clause_cancel hcomma horders (ht.avoids (by decide)) (hu.avoids (by decide)) h
  exact ⟨fun hsrc => ⟨halike₁.imp fun _ _ halike => halike hsrc,
    halike₂.imp fun _ _ halike => halike hsrc, halike₃.imp fun _ _ halike => halike hsrc⟩, h⟩

theorem cancels_sources (xs ys : List String) :
    Cancels [] Eq (fun s => [Token.word s]) (fun s => [Token.word s]) xs ys := by
  intro x _ y _ r s _ _ h
  exact ⟨Token.word.inj (List.cons.inj h).1, (List.cons.inj h).2⟩

theorem readable_of_exprs {r : Relation} (hread : ∀ e ∈ r.exprs, e.Readable) : r.Readable := by
  intro rename s t u hr hs ht hu h
  have hcolumn : ∀ {r : Relation}, ∀ c ∈ r.columns, c.expr ∈ r.exprs :=
    fun c hc => mem_exprs.mpr (.inl ⟨c, hc, rfl⟩)
  have hcolumns := Column.cancels_columns rename (fun c hc => hread c.expr (hcolumn c hc))
    (fun c hc => hr.expr (hcolumn c hc)) (fun c hc => hs.expr (hcolumn c hc))
  rw [tokens_select, tokens_select] at h
  obtain ⟨hcs, h⟩ := intercalate_cancel (by decide) (hr r .refl).columns_ne_nil
    (hs s .refl).columns_ne_nil hcolumns (avoids_cons (by decide)) (avoids_cons (by decide))
    (List.cons.inj h).2
  obtain ⟨hsources, h⟩ := intercalate_cancel List.not_mem_nil (hr r .refl).sources_ne_nil
    (hs s .refl).sources_ne_nil (cancels_sources r.sources s.sources)
    ((beginsIn_clauses r ht).avoids (by decide)) ((beginsIn_clauses s hu).avoids (by decide))
    (List.cons.inj h).2
  obtain ⟨hclauses, htu⟩ := clauses_cancel hread hr hs ht hu h
  have hsrc : r.sources = s.sources := List.forall₂_eq_eq_eq ▸ hsources
  obtain ⟨hrestrictions, hgroups, horders⟩ := hclauses hsrc
  refine ⟨⟨.intro hsrc ?_ hrestrictions hgroups horders, fun hrename => ?_⟩, htu⟩
  · rw [List.forall₂_map_left_iff, List.forall₂_map_right_iff]
    exact hcs.imp fun _ _ hc => (hc hsrc).1
  · unfold keys
    rw [← List.forall₂_eq_eq_eq, List.forall₂_map_left_iff, List.forall₂_map_right_iff]
    exact hcs.imp fun _ _ hc => (hc hsrc).2 hrename

end Relation

/-! ## readability -/

/-- an expression is told by its base and its tests, a query by its expressions -/
theorem structural_readable : Structural
    (fun e => e.base.BaseReadable ∧ ∀ r ∈ e.tests, r.Readable) Relation.Readable where
  literal l := ⟨Expr.baseReadable_literal l, fun _ hr => absurd hr List.not_mem_nil⟩
  attr a := ⟨Expr.baseReadable_attr a, fun _ hr => absurd hr List.not_mem_nil⟩
  binary op t _ _ hl hr := ⟨Expr.baseReadable_binary op t (Expr.readable_of_base hl.1 hl.2)
    (Expr.readable_of_base hr.1 hr.2), fun _ hs => absurd hs List.not_mem_nil⟩
  aggregate f t _ he := ⟨Expr.baseReadable_aggregate f t (Expr.readable_of_base he.1 he.2),
    fun _ hs => absurd hs List.not_mem_nil⟩
  member _ _ _ he hr := ⟨he.1, List.forall_mem_cons.mpr ⟨hr, he.2⟩⟩
  relation _ h := Relation.readable_of_exprs fun e he => Expr.readable_of_base (h e he).1 (h e he).2

namespace Relation

variable {ds es : List TableDeclaration} {r s : Relation}

theorem Derived.deepScoped (h : Derived Expr.Made ds r) : r.DeepScoped := by
  intro s hs
  obtain ⟨es, hs⟩ := h.of_nests hs
  refine ⟨hs.legible.sources_ne_nil, hs.legible.columns_ne_nil, fun a ha => ?_, hs.literals_made⟩
  obtain ⟨d, -, -, howner, hsource⟩ := hs.scopeClosed.leaf a ha
  refine ⟨d.name, hsource, ?_⟩
  rw [Attribute.table?, howner]
  rfl

/-- **Unique readability.**  In every dialect, two derived relations with the same query, in which computed
and renamed columns are given their names, have the same output names in the same order and are alike:
they read the same sources, and their expressions are the same trees, recursively in their subselects. -/
theorem Derived.unique_readability {d : Dialect} (hr : Derived Expr.Made ds r)
    (hs : Derived Expr.Made es s) {t u : Statement} (ht : (Command.select r true).compile d = .ok t)
    (hu : (Command.select s true).compile d = .ok u) (hsql : t.sql = u.sql) :
    r.keys = s.keys ∧ r.Alike s := by
  have htext : selectText d true r = selectText d true s := by
    rw [← Except.ok.inj ht, ← Except.ok.inj hu] at hsql
    exact hsql
  have htokens : slotTokens (selectSlots true r) ++ [] = slotTokens (selectSlots true s) ++ [] := by
    have hlex := (lex_selectText hr.deepLegible true).symm.trans
      ((congrArg lex htext).trans (lex_selectText hs.deepLegible true))
    rw [Option.some.inj hlex]
  obtain ⟨⟨halike, hkeys⟩, -⟩ := structural_readable.of_relation r true s [] [] hr.deepScoped
    hs.deepScoped nofun nofun htokens
  exact ⟨hkeys rfl, halike⟩

/-! ## a truth value and the integer it is written as -/

section

/-- the persons, each with the same literal and whether the person is a member -/
def flagged (l : Literal) : Relation :=
  { personTable with
    kind := .derived
    columns := [⟨"flag", .literal l⟩, ⟨"member", isMember⟩] }

/-- a projection to a host value and a membership test -/
theorem derived_flagged {v : Value} {l : Literal} (hv : v.toLiteral = .ok l)
    (hrun : (Operation.project [("flag", .value v), ("member", .expr isMember)]).run personTable
      = .ok (flagged l)) : Derived Expr.Made [persons] (flagged l) := by
  have hexprs : (Operation.project [("flag", .value v), ("member", .expr isMember)]).exprs
      = [.literal l, isMember] := by
    simp [Operation.exprs, Operand.toExpr, hv, Except.map, Except.toOption]
  refine .step (fun _ => [members]) (derived_personTable _) ?_ ?_ hrun
  · rw [hexprs]
    intro e he m hm
    rcases List.mem_pair.mp he with rfl | rfl
    · rw [List.mem_singleton.mp hm]
      exact .value hv
    · exact absurd hm List.not_mem_nil
  · rw [hexprs]
    intro e he s hs
    rcases List.mem_pair.mp he with rfl | rfl
    · exact absurd hs List.not_mem_nil
    · rw [List.mem_singleton.mp hs]
      exact derived_memberTable _

/-- the hypotheses of `Derived.unique_readability` can be met by two relations that are not equal -/
theorem unique_readability_flagged :
    Derived Expr.Made [persons] (flagged (.boolean true)) ∧
      Derived Expr.Made [persons] (flagged (.integer 1)) ∧
      flagged (.boolean true) ≠ flagged (.integer 1) ∧
      (Command.select (flagged (.boolean true)) true).compile .sqlite
        = (Command.select (flagged (.integer 1)) true).compile .sqlite ∧
      (flagged (.boolean true)).keys = (flagged (.integer 1)).keys ∧
      (flagged (.boolean true)).Alike (flagged (.integer 1)) := by
  have hboolean : Derived Expr.Made [persons] (flagged (.boolean true)) :=
    derived_flagged (v := .bool true) rfl rfl
  have hinteger : Derived Expr.Made [persons] (flagged (.integer 1)) :=
    derived_flagged (v := .int 1) rfl rfl
  have hsql : (Command.select (flagged (.boolean true)) true).compile .sqlite
      = (Command.select (flagged (.integer 1)) true).compile .sqlite := rfl
  exact ⟨hboolean, hinteger, nofun, hsql, hboolean.unique_readability hinteger rfl hsql.symm rfl⟩

end

end Relation

end TableAlgebra
