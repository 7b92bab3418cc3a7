import TableAlgebra.Proofs.Expr.Leaves
import TableAlgebra.Proofs.Sql.Lexer
import TableAlgebra.Sql.Select

/-!
# The tokens of a query

What a query consists of, apart from its spelling.  Its tokens are given with their origin: a slot is
either fixed by the query or the place of a string that the program supplied, and the tokens come from
filling the places.  The text of a query, read by the lexer, gives these tokens.

* `Slot`, `Slot.fill`          a token, or a place for a string;
* `exprSlots`, `selectSlots`   the slots of an expression and of a query;
* `Relation.Legible`           the names of a relation are identifiers and its numbers finite;
* `reads_exprText`, `lex_selectText`   an expression and a query are read as their tokens.
-/

namespace TableAlgebra

/-! ## slots -/

/-- a token fixed by the statement, or the place of a string that the program supplied -/
inductive Slot where
  | fixed (token : Token)
  | place (text : String)

namespace Slot

/-- the token of a slot, the string of a place changed by `σ` -/
def fill (σ : String → String) : Slot → Token
  | fixed token => token
  | place text => .string (σ text)

def word (text : String) : Slot := fixed (.word text)

def symbol (text : String) : Slot := fixed (.symbol text)

end Slot

/-- the tokens of slots, with the strings as the program supplied them -/
def slotTokens (slots : List Slot) : List Token := slots.map (Slot.fill id)

/-- the slots of the text of a number: a minus is a token of its own -/
def numeralSlots (text : String) : List Slot :=
  match text.toList with
  | '-' :: digits => [.symbol "-", .fixed (.numeral (String.ofList digits))]
  | _ => [.fixed (.numeral text)]

/-- the slots of a literal; a label is fixed, since the program does not choose its text -/
def Literal.slots : Literal → List Slot
  | boolean b => [.fixed (.numeral (if b then "1" else "0"))]
  | integer i => numeralSlots (toString i.toInt)
  | number x => numeralSlots x.text
  | string s => [.place s]
  | label v => [.fixed (.string v.label)]

def Attribute.slots (a : Attribute) (qualified : Bool) : List Slot :=
  match a.table? with
  | some table => if qualified then [.word table, .symbol ".", .word a.name] else [.word a.name]
  | none => [.word a.name]

def BinaryOp.slot : BinaryOp → Slot
  | logic op => .word (logic op).symbol
  | op => .symbol op.symbol

/-- the slots of a keyword and the items that follow it -/
def clauseSlots (keyword : List Slot) (separator : Slot) (items : List (List Slot)) : List Slot :=
  if items.isEmpty then [] else keyword ++ [separator].intercalate items

/-- the expression is an attribute of that name -/
def Expr.bears (e : Expr) (key : String) : Bool := e.attribute?.any fun a => a.name == key

/-- the slots of the name that a column is given, unless it bears the name already -/
def aliasSlots (rename : Bool) (key : String) (e : Expr) : List Slot :=
  if rename && !e.bears key then [.word "as", .word key] else []

mutual

def exprSlots (qualified : Bool) : Expr → List Slot
  | .literal l => l.slots
  | .attr a => a.slots qualified
  | .binary op _ l r =>
    .symbol "(" :: exprSlots qualified l ++ op.slot :: exprSlots qualified r ++ [.symbol ")"]
  | .aggregate f _ e => .word f.name :: .symbol "(" :: exprSlots qualified e ++ [.symbol ")"]
  | .member _ e r =>
    exprSlots qualified e ++ .word "in" :: .symbol "(" :: selectSlots false r ++ [.symbol ")"]

def exprsSlots (qualified : Bool) : List Expr → List (List Slot)
  | [] => []
  | e :: es => exprSlots qualified e :: exprsSlots qualified es

def columnsSlots (qualified rename : Bool) : List Column → List (List Slot)
  | [] => []
  | ⟨key, e⟩ :: cs =>
    (exprSlots qualified e ++ aliasSlots rename key e) :: columnsSlots qualified rename cs

def selectSlots (rename : Bool) : Relation → List Slot
  | ⟨_, sources, columns, restrictions, groups, orders⟩ =>
    let qualified := decide (1 < sources.length)
    .word "select" :: [.symbol ","].intercalate (columnsSlots qualified rename columns)
      ++ .word "from" :: [.symbol ","].intercalate (sources.map fun s => [.word s])
      ++ clauseSlots [.word "where"] (.word "and") (exprsSlots qualified restrictions)
      ++ clauseSlots [.word "group", .word "by"] (.symbol ",") (exprsSlots qualified groups)
      ++ clauseSlots [.word "order", .word "by"] (.symbol ",") (exprsSlots qualified orders)

end

theorem exprsSlots_eq_map (qualified : Bool) (es : List Expr) :
    exprsSlots qualified es = es.map (exprSlots qualified) := by
  induction es with
  | nil => rfl
  | cons e es ih => rw [exprsSlots, ih, List.map_cons]

theorem columnsSlots_eq_map (qualified rename : Bool) (cs : List Column) :
    columnsSlots qualified rename cs
      = cs.map fun c => exprSlots qualified c.expr ++ aliasSlots rename c.key c.expr := by
  induction cs with
  | nil => rfl
  | cons c cs ih =>
    obtain ⟨key, e⟩ := c
    rw [columnsSlots, ih, List.map_cons]

theorem selectSlots_eq (rename : Bool) (r : Relation) :
    selectSlots rename r =
      .word "select" :: [.symbol ","].intercalate
          (columnsSlots (decide (1 < r.sources.length)) rename r.columns)
        ++ .word "from" :: [.symbol ","].intercalate (r.sources.map fun s => [.word s])
        ++ clauseSlots [.word "where"] (.word "and")
          (exprsSlots (decide (1 < r.sources.length)) r.restrictions)
        ++ clauseSlots [.word "group", .word "by"] (.symbol ",")
          (exprsSlots (decide (1 < r.sources.length)) r.groups)
        ++ clauseSlots [.word "order", .word "by"] (.symbol ",")
          (exprsSlots (decide (1 < r.sources.length)) r.orders) := by
  obtain ⟨kind, sources, columns, restrictions, groups, orders⟩ := r
  rw [selectSlots]

/-! ## names and numbers that can be read -/

/-- a literal that is written as tokens: every one but an infinity or NaN -/
def Literal.Legible (l : Literal) : Prop := ∀ x, l = .number x → x.isFinite = true

/-- an attribute whose name and table are identifiers -/
def Attribute.Legible (a : Attribute) : Prop :=
  isIdentifier a.name = true ∧ ∀ table, a.table? = some table → isIdentifier table = true

/-- a relation that reads at least one table and gives out at least one column, all under identifiers,
and whose expressions can be read; its membership tests are not looked into -/
structure Relation.Legible (r : Relation) : Prop where
  source : ∀ s ∈ r.sources, isIdentifier s = true
  sources_ne_nil : r.sources ≠ []
  key : ∀ c ∈ r.columns, isIdentifier c.key = true
  columns_ne_nil : r.columns ≠ []
  leaf : ∀ a ∈ r.leaves, a.Legible
  literal : ∀ l ∈ r.literals, l.Legible

/-- everything nested in the relation, itself included, can be read -/
def Relation.DeepLegible (r : Relation) : Prop := ∀ s, r.Nests s → s.Legible

/-- the expression and everything nested in it can be read -/
abbrev Expr.DeepLegible (e : Expr) : Prop :=
  e.All Attribute.Legible Literal.Legible Relation.DeepLegible

namespace Relation.DeepLegible

variable {r : Relation}

theorem legible (h : r.DeepLegible) : r.Legible :=
  h r .refl

theorem expr (h : r.DeepLegible) {e : Expr} (he : e ∈ r.exprs) : e.DeepLegible where
  leaf a ha := h.legible.leaf a (List.mem_flatMap.mpr ⟨e, he, ha⟩)
  literal l hl := h.legible.literal l (List.mem_flatMap.mpr ⟨e, he, hl⟩)
  subselect _ hs t ht := h t (ht.of_subselect he hs)

end Relation.DeepLegible

/-! ## what is written is read back -/

@[simp] theorem Slot.fill_word (σ : String → String) (text : String) :
    (Slot.word text).fill σ = .word text := rfl

@[simp] theorem Slot.fill_symbol (σ : String → String) (text : String) :
    (Slot.symbol text).fill σ = .symbol text := rfl

theorem slotTokens_nil : slotTokens [] = [] := rfl

theorem slotTokens_append (xs ys : List Slot) :
    slotTokens (xs ++ ys) = slotTokens xs ++ slotTokens ys :=
  List.map_append

theorem slotTokens_cons (x : Slot) (xs : List Slot) :
    slotTokens (x :: xs) = x.fill id :: slotTokens xs :=
  rfl

theorem numeralSlots_of_numeral {text : String} (h : IsNumeral text) :
    numeralSlots text = [.fixed (.numeral text)] := by
  obtain ⟨c, cs, htext, hc, -⟩ := h.toList_eq
  have hne : c ≠ '-' := by
    rintro rfl
    exact absurd hc (by decide)
  unfold numeralSlots
  rw [htext]
  split
  · rename_i heq
    exact absurd (List.cons.inj heq).1 hne
  · rfl

theorem numeralSlots_negative (text : String) :
    numeralSlots ("-" ++ text) = [.symbol "-", .fixed (.numeral text)] := by
  have hcons : ("-" ++ text).toList = '-' :: text.toList := by
    rw [String.toList_append]
    rfl
  unfold numeralSlots
  rw [hcons]
  show [Slot.symbol "-", .fixed (.numeral (String.ofList text.toList))] = _
  rw [String.ofList_toList]

theorem reads_numeralSlots {text : String} (h : IsNumeral text) :
    Reads text (slotTokens (numeralSlots text)) ∧
      Reads ("-" ++ text) (slotTokens (numeralSlots ("-" ++ text))) := by
  rw [numeralSlots_of_numeral h, numeralSlots_negative]
  exact ⟨reads_numeral h, reads_negative h⟩

theorem reads_toString (i : Int) : Reads (toString i) (slotTokens (numeralSlots (toString i))) := by
  cases i with
  | ofNat n => exact (reads_numeralSlots (isNumeral_toString n)).1
  | negSucc n => exact (reads_numeralSlots (isNumeral_toString (n + 1))).2

theorem reads_number {x : Binary64} (h : x.isFinite = true) :
    Reads x.text (slotTokens (numeralSlots x.text)) := by
  obtain ⟨digits, hdigits, htext⟩ := Binary64.text_of_finite h
  rw [htext]
  unfold Binary64.signText
  split
  · exact (reads_numeralSlots hdigits).2
  · rw [String.empty_append]
    exact (reads_numeralSlots hdigits).1

theorem isNumeral_truth (b : Bool) : IsNumeral (if b then "1" else "0") := by
  cases b with
  | false => exact isNumeral_toString 0
  | true => exact isNumeral_toString 1

theorem Literal.reads_sqlText (d : Dialect) {l : Literal} (h : l.Legible) :
    Reads (l.sqlText d) (slotTokens l.slots) := by
  cases l with
  | boolean b =>
    show Reads (d.booleanLiteral b) _
    rw [d.booleanLiteral_eq]
    exact reads_numeral (isNumeral_truth b)
  | integer i => exact reads_toString i.toInt
  | number x => exact reads_number (h x rfl)
  | string s => exact reads_quote s
  | label v => exact reads_quote v.label

theorem Attribute.reads_reference {a : Attribute} (h : a.Legible) (qualified : Bool) :
    Reads (a.reference qualified) (slotTokens (a.slots qualified)) := by
  obtain ⟨hname, htable⟩ := h
  unfold Attribute.reference Attribute.slots
  cases ht : a.table? with
  | none => exact reads_word hname
  | some table =>
    cases qualified with
    | false => exact reads_word hname
    | true => exact reads_qualified (htable table ht) hname

theorem BinaryOp.separates_symbol (op : BinaryOp) :
    Separates (" " ++ op.symbol ++ " ") [op.slot.fill id] := by
  cases op with
  | compare op => cases op <;> exact .of_fixed rfl rfl rfl
  | logic op => cases op <;> exact .of_fixed rfl rfl rfl
  | arith op => cases op <;> exact .of_fixed rfl rfl rfl

theorem map_intercalate {α β : Type} (f : α → β) (separator : List α) (items : List (List α)) :
    (separator.intercalate items).map f = (separator.map f).intercalate (items.map (List.map f)) := by
  induction items with
  | nil => rfl
  | cons item items ih =>
    cases items with
    | nil => simp only [List.map_cons, List.map_nil, List.intercalate_singleton]
    | cons next items =>
      rw [List.intercalate_cons_cons, List.map_append, List.map_append, ih]
      simp only [List.map_cons, List.intercalate_cons_cons]

theorem slotTokens_intercalate (separator : List Slot) (items : List (List Slot)) :
    slotTokens (separator.intercalate items)
      = (slotTokens separator).intercalate (items.map slotTokens) :=
  map_intercalate (Slot.fill id) separator items

theorem Reads.append_clause {text : String} {tokens : List Token} (h : Reads text tokens)
    {keyword separator : String} {key : List Slot} {between : Slot}
    (hkey : Separates keyword (slotTokens key)) (hbetween : Separates separator [between.fill id])
    {texts : List String} {items : List (List Slot)}
    (hitems : List.Forall₂ Reads texts (items.map slotTokens)) :
    Reads (text ++ clauseText keyword separator texts)
      (tokens ++ slotTokens (clauseSlots key between items)) := by
  cases texts with
  | nil =>
    have hnil : items = [] := List.map_eq_nil_iff.mp (List.forall₂_nil_left_iff.mp hitems)
    rw [hnil]
    show Reads (text ++ "") (tokens ++ [])
    rwa [String.append_empty, List.append_nil]
  | cons t ts =>
    have hne : items ≠ [] := by
      rintro rfl
      exact nomatch List.forall₂_nil_right_iff.mp hitems
    have hslots : clauseSlots key between items = key ++ [between].intercalate items :=
      if_neg (by simpa using hne)
    rw [hslots, slotTokens_append, slotTokens_intercalate]
    exact h.append (hkey.append (reads_intercalate hbetween hitems))

theorem aliased_eq (rename : Bool) (key : String) (e : Expr) (text : String) :
    aliased rename key e text = if rename && !e.bears key then text ++ " as " ++ key else text := by
  unfold aliased Expr.bears
  cases e.attribute? <;> rfl

theorem Reads.append_alias {text : String} {tokens : List Token} (h : Reads text tokens)
    {key : String} (hkey : isIdentifier key = true) (rename : Bool) (e : Expr) :
    Reads (aliased rename key e text) (tokens ++ slotTokens (aliasSlots rename key e)) := by
  have hkeyword : Separates " as " [.word "as"] := .of_fixed rfl rfl rfl
  have halias := h.append (hkeyword.append (reads_word hkey))
  rw [aliased_eq, aliasSlots]
  split
  · rw [String.append_assoc]
    exact halias
  · show Reads text (tokens ++ [])
    rwa [List.append_nil]

theorem selectText_eq (d : Dialect) (rename : Bool) (r : Relation) :
    selectText d rename r = "select "
      ++ ", ".intercalate (columnTexts d (decide (1 < r.sources.length)) rename r.columns)
      ++ " from " ++ ", ".intercalate r.sources
      ++ clauseText " where " " and " (exprTexts d (decide (1 < r.sources.length)) r.restrictions)
      ++ clauseText " group by " ", " (exprTexts d (decide (1 < r.sources.length)) r.groups)
      ++ clauseText " order by " ", " (exprTexts d (decide (1 < r.sources.length)) r.orders) := by
  obtain ⟨kind, sources, columns, restrictions, groups, orders⟩ := r
  rw [selectText]

variable {d : Dialect}

section

variable {qualified : Bool}

theorem reads_exprTexts {es : List Expr}
    (h : ∀ e ∈ es, Reads (exprText d qualified e) (slotTokens (exprSlots qualified e))) :
    List.Forall₂ Reads (exprTexts d qualified es) ((exprsSlots qualified es).map slotTokens) := by
  rw [exprTexts_eq_map, exprsSlots_eq_map, List.map_map, List.forall₂_map_left_iff,
    List.forall₂_map_right_iff, List.forall₂_same]
  exact h

theorem reads_columnTexts (rename : Bool) {cs : List Column}
    (hkey : ∀ c ∈ cs, isIdentifier c.key = true)
    (h : ∀ c ∈ cs, Reads (exprText d qualified c.expr) (slotTokens (exprSlots qualified c.expr))) :
    List.Forall₂ Reads (columnTexts d qualified rename cs)
      ((columnsSlots qualified rename cs).map slotTokens) := by
  rw [columnTexts_eq_map, columnsSlots_eq_map, List.map_map, List.forall₂_map_left_iff,
    List.forall₂_map_right_iff, List.forall₂_same]
  intro c hc
  show Reads (columnText d qualified rename c) (slotTokens (_ ++ _))
  rw [columnText_eq, slotTokens_append]
  exact (h c hc).append_alias (hkey c hc) rename c.expr

theorem reads_sources {sources : List String} (h : ∀ s ∈ sources, isIdentifier s = true) :
    List.Forall₂ Reads sources ((sources.map fun s => [Slot.word s]).map slotTokens) := by
  rw [List.map_map, List.forall₂_map_right_iff, List.forall₂_same]
  exact fun s hs => reads_word (h s hs)

end

/-- a query is read as its slots if its expressions are -/
theorem reads_selectText {r : Relation} (h : r.Legible)
    (hexprs : ∀ e ∈ r.exprs, ∀ qualified, Reads (exprText d qualified e) (slotTokens (exprSlots qualified e)))
    (rename : Bool) : Reads (selectText d rename r) (slotTokens (selectSlots rename r)) := by
  have hexpr : ∀ e ∈ r.exprs, Reads (exprText d (decide (1 < r.sources.length)) e)
      (slotTokens (exprSlots (decide (1 < r.sources.length)) e)) :=
    fun e he => hexprs e he _
  have hselect : Opens "select " [.word "select"] := .of_fixed rfl rfl
  have hfrom : Separates " from " [.word "from"] := .of_fixed rfl rfl rfl
  have hcomma : Separates ", " [(Slot.symbol ",").fill id] := .of_fixed rfl rfl rfl
  have hand : Separates " and " [(Slot.word "and").fill id] := .of_fixed rfl rfl rfl
  have hwhere : Separates " where " (slotTokens [.word "where"]) := .of_fixed rfl rfl rfl
  have hgroup : Separates " group by " (slotTokens [.word "group", .word "by"]) := .of_fixed rfl rfl rfl
  have horder : Separates " order by " (slotTokens [.word "order", .word "by"]) := .of_fixed rfl rfl rfl
  have hcolumns := reads_intercalate hcomma (reads_columnTexts rename h.key
    fun c hc => hexpr c.expr (Relation.mem_exprs.mpr (.inl ⟨c, hc, rfl⟩)))
  have hsources := reads_intercalate hcomma (reads_sources h.source)
  have hhead := ((hselect.append hcolumns).append_separator hfrom).append hsources
  have hclauses := ((hhead.append_clause hwhere hand (reads_exprTexts fun e he =>
      hexpr e (Relation.mem_exprs.mpr (.inr (.inl he))))).append_clause hgroup hcomma
    (reads_exprTexts fun e he =>
      hexpr e (Relation.mem_exprs.mpr (.inr (.inr (.inl he)))))).append_clause horder hcomma
    (reads_exprTexts fun e he => hexpr e (Relation.mem_exprs.mpr (.inr (.inr (.inr he)))))
  rw [selectText_eq, selectSlots_eq]
  simp only [slotTokens_append, slotTokens_cons, slotTokens_nil, slotTokens_intercalate]
  simpa only [List.append_assoc, List.cons_append, List.nil_append, Slot.fill_word] using hclauses

/-- an expression and a query are read as their slots, the one by the parts of the tree, the other by
its expressions -/
theorem structural_reads : Structural
    (fun e => e.DeepLegible → ∀ qualified, Reads (exprText d qualified e) (slotTokens (exprSlots qualified e)))
    (fun r => r.DeepLegible → ∀ rename, Reads (selectText d rename r) (slotTokens (selectSlots rename r))) where
  literal l h qualified := by
    rw [exprText_literal, exprSlots]
    exact Literal.reads_sqlText d (h.literal l (List.mem_singleton_self l))
  attr a h qualified := by
    rw [exprText_attr, exprSlots]
    exact Attribute.reads_reference (h.leaf a (List.mem_singleton_self a)) qualified
  binary op t l r hl hr h qualified := by
    have hopen : Opens "(" [.symbol "("] := .of_fixed rfl rfl
    have hclose : Ends ")" [.symbol ")"] := (Separates.of_fixed rfl rfl rfl).ends
    have hleft := (hopen.append (hl h.left qualified)).append_separator op.separates_symbol
    have hright := (hleft.append (hr h.right qualified)).append hclose
    rw [exprText_binary, exprSlots]
    simp only [slotTokens_append, slotTokens_cons, slotTokens_nil, Slot.fill_symbol]
    simpa only [String.append_assoc, List.append_assoc, List.cons_append, List.nil_append] using hright
  aggregate f t e he h qualified := by
    have hname : Opens (f.name ++ "(") [.word f.name, .symbol "("] := by
      cases f <;> exact .of_fixed rfl rfl
    have hclose : Ends ")" [.symbol ")"] := (Separates.of_fixed rfl rfl rfl).ends
    have hcall := (hname.append (he h.operand qualified)).append hclose
    rw [exprText_aggregate, exprSlots]
    simp only [slotTokens_append, slotTokens_cons]
    exact hcall
  member t e r he hr h qualified := by
    have hin : Separates " in (" [.word "in", .symbol "("] := .of_fixed rfl rfl rfl
    have hclose : Ends ")" [.symbol ")"] := (Separates.of_fixed rfl rfl rfl).ends
    have htest := ((he h.tested qualified).append_separator hin).append (hr h.relation false)
    rw [exprText_member, exprSlots]
    simp only [slotTokens_append, slotTokens_cons, slotTokens_nil, Slot.fill_word, Slot.fill_symbol]
    simpa only [String.append_assoc, List.append_assoc, List.cons_append, List.nil_append]
      using htest.append hclose
  relation r hexprs h rename := reads_selectText h.legible (fun e he => hexprs e he (h.expr he)) rename

theorem reads_exprText {e : Expr} (h : e.DeepLegible) (qualified : Bool) :
    Reads (exprText d qualified e) (slotTokens (exprSlots qualified e)) :=
  structural_reads.of_expr e h qualified

theorem lex_selectText {r : Relation} (h : r.DeepLegible) (rename : Bool) :
    lex (selectText d rename r) = some (slotTokens (selectSlots rename r)) :=
  (structural_reads.of_relation r h rename).lex_eq

end TableAlgebra
