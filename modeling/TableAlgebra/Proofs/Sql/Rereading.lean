import TableAlgebra.Proofs.Sql.Regrouping

/-!
# Expressions read back

The reader is led through the text of an expression, node by node.  It may stand behind operators that
wait for the expression: those that bind less tightly than a membership test wait until its end, the others
until its first test.  A query is read item by item and clause by clause.

* `Expr.readFrom`                        what waits, and what stands there, after an expression;
* `SqlReader.read_operators`             which of two operators takes the operand between them;
* `Expr.IsRead`, `Relation.IsRead`       the tokens of an expression and of a query are read as said;
* `structural_isRead`                    all of them are, if they can be read at all;
* `readExpr_exprText`                    so the text of an expression is read as `Expr.asRead` says.
-/

namespace TableAlgebra

/-! ## operators that wait in front of an expression -/

namespace Expr

variable {qualified : Bool} {op : BinaryOp} {l : SqlExpr}

/-- what waits and what stands behind it when an expression has been read: each test in it gives what stands
there to the operators that bind as tightly -/
def readFrom (qualified : Bool) (pending : Pending) : Expr → Pending × SqlExpr
  | member _ e r =>
    let (rest, left) := (e.readFrom qualified pending).1.reduce membershipLevel
      (e.readFrom qualified pending).2
    (rest, .member left r.asRead)
  | e => (pending, e.asRead qualified)

theorem readFrom_of_tests_nil (pending : Pending) : {e : Expr} → e.tests = [] →
    e.readFrom qualified pending = (pending, e.asRead qualified)
  | literal _, _ => rfl
  | attr _, _ => rfl
  | binary _ _ _ _, _ => rfl
  | aggregate _ _ _, _ => rfl
  | member _ _ _, h => nomatch h

/-- operators that bind less tightly than a test wait until the end of the expression -/
theorem readFrom_of_loose {pending : Pending} (h : pending.Loose) (e : Expr) :
    e.readFrom qualified pending = (pending, e.asRead qualified) := by
  cases e with
  | member _ e r =>
    rw [readFrom, readFrom_of_loose h e, h.reduce_eq]
    rfl
  | _ => rfl

theorem reduce_readFrom_of_tests_nil (h : membershipLevel ≤ op.level) {e : Expr} (he : e.tests = []) :
    (e.readFrom qualified [(op, l)]).1.reduce membershipLevel (e.readFrom qualified [(op, l)]).2
      = ([], e.readAfter qualified (.binary op l)) := by
  rw [readFrom_of_tests_nil _ he, readAfter_of_tests_nil _ he, Pending.reduce_of_le h]
  rfl

/-- an operator that binds as tightly as a test waits until the first one, or until the end -/
theorem reduce_readFrom_of_tight (h : membershipLevel ≤ op.level) (e : Expr) :
    (e.readFrom qualified [(op, l)]).1.reduce membershipLevel (e.readFrom qualified [(op, l)]).2
      = ([], e.readAfter qualified (.binary op l)) := by
  cases e with
  | member _ e r =>
    rw [readFrom, reduce_readFrom_of_tight h e, readAfter]
    rfl
  | _ => exact reduce_readFrom_of_tests_nil h rfl

/-- what a binary node is read as, once its parenthesis is closed -/
theorem finish_readFrom (t : DataType) (e r : Expr) :
    Pending.finish (r.readFrom qualified [(op, e.asRead qualified)]).1
        (r.readFrom qualified [(op, e.asRead qualified)]).2
      = (binary op t e r).asRead qualified := by
  rw [asRead_binary]
  split
  · next htight =>
    rw [← Pending.finish_reduce membershipLevel, reduce_readFrom_of_tight htight]
    rfl
  · next hloose =>
    rw [readFrom_of_loose (Pending.loose_cons (Nat.lt_of_not_le hloose) _ _)]
    rfl

end Expr

/-! ## the reader at work -/

namespace SqlReader

variable {frames : List Frame} {pending : Pending} {left e : SqlExpr} {clause : Clause} {query : SqlQuery}
  {qualified : Bool} {rest : List Token}

theorem read_cons {s s' : SqlReader} {t : Token} (h : s.step t = some s') (ts : List Token) :
    s.read (t :: ts) = s'.read ts := by
  rw [read, h]
  rfl

theorem read_word {text : String} (h : Avoids stoppers rest) :
    read ⟨frames, pending, .word text⟩ rest = read ⟨frames, pending, .expr (.name none text)⟩ rest := by
  cases rest with
  | nil =>
    cases frames <;> rfl
  | cons t ts =>
    have hpoint : t ≠ .symbol "." := fun ht => h.not_mem (ht ▸ by decide)
    have hopen : t ≠ .symbol "(" := fun ht => h.not_mem (ht ▸ by decide)
    have hstep : step ⟨frames, pending, .word text⟩ t
        = step ⟨frames, pending, .expr (.name none text)⟩ t := by
      show (if t = .symbol "." then _ else if t = .symbol "(" then _ else _) = _
      rw [if_neg hpoint, if_neg hopen]
      rfl
    rw [read, read, hstep]

theorem read_constant (l : Literal) :
    read ⟨frames, pending, .operand⟩ (slotTokens l.slots ++ rest)
      = read ⟨frames, pending, .expr (.constant (slotTokens l.slots))⟩ rest := by
  rcases l.slotTokens_cases with ⟨text, h, -⟩ | ⟨text, h, -⟩ | ⟨text, h, -⟩ <;> rw [h] <;> rfl

theorem read_name (a : Attribute) (h : Avoids stoppers rest) :
    read ⟨frames, pending, .operand⟩ (slotTokens (a.slots qualified) ++ rest)
      = read ⟨frames, pending, .expr (a.sqlName qualified)⟩ rest := by
  unfold Attribute.slots Attribute.sqlName
  cases a.table? with
  | none =>
    rw [ite_self]
    exact read_word h
  | some table =>
    cases qualified with
    | false => exact read_word h
    | true => rfl

/-- an operator takes what binds as tightly on its left, and waits -/
theorem read_operator (op : BinaryOp) {waiting : Pending} (h : pending.reduce op.level e = (waiting, left))
    (ts : List Token) : read ⟨frames, pending, .expr e⟩ (op.slot.fill id :: ts)
      = read ⟨frames, (op, left) :: waiting, .operand⟩ ts := by
  refine read_cons ?_ ts
  show afterExpr frames pending e (op.slot.fill id) = _
  rw [afterExpr, Token.operator?_slot]
  dsimp only
  rw [h]

theorem read_first_operator (op : BinaryOp) (ts : List Token) :
    read ⟨frames, [], .expr e⟩ (op.slot.fill id :: ts) = read ⟨frames, [(op, e)], .operand⟩ ts :=
  read_operator op rfl ts

theorem avoids_operator (op : BinaryOp) (ts : List Token) : Avoids stoppers (op.slot.fill id :: ts) :=
  avoids_cons fun h => op.slot_not_mem_stoppers (List.mem_cons_of_mem _ h)

/-- Of two operators in a row the one that binds tighter takes the operand between them; of two that bind as
tightly it is the first one. -/
theorem read_operators (op op' : BinaryOp) (a b c : String) :
    start.read [.word a, op.slot.fill id, .word b, op'.slot.fill id, .word c] = some
      (if op'.level ≤ op.level then .binary op' (.binary op (.name none a) (.name none b)) (.name none c)
      else .binary op (.name none a) (.binary op' (.name none b) (.name none c))) := by
  have hname (pending : Pending) (w : String) {ts : List Token} (h : Avoids stoppers ts) :
      read ⟨[], pending, .operand⟩ (.word w :: ts) = read ⟨[], pending, .expr (.name none w)⟩ ts :=
    (read_cons rfl ts).trans (read_word h)
  rw [start, hname _ _ (avoids_operator _ _), read_first_operator, hname _ _ (avoids_operator _ _)]
  by_cases h : op'.level ≤ op.level
  · rw [read_operator op' (Pending.reduce_of_le h _ _ _), hname _ _ avoids_nil, if_pos h]
    rfl
  · have hwait : Pending.reduce op'.level [(op, .name none a)] (.name none b)
        = ([(op, .name none a)], .name none b) := by
      rw [Pending.reduce, if_neg h]
    rw [read_operator op' hwait, hname _ _ avoids_nil, if_neg h]
    rfl

example : readExpr "a or b and c = d - e - f * g" =
    let name := SqlExpr.name none
    some (.binary (.logic .or) (name "a") (.binary (.logic .and) (name "b") (.binary (.compare .eq) (name "c")
      (.binary (.arith .sub) (.binary (.arith .sub) (name "d") (name "e"))
        (.binary (.arith .mul) (name "f") (name "g")))))) := by
  rfl

/-- what follows an item of a clause -/
def boundaries : List Token := [.symbol ",", .symbol ")", .word "from", .word "group", .word "order"]

/-- an expression is a complete item of its clause where nothing goes on with it -/
theorem read_boundary (h : BeginsIn boundaries rest) {waiting : Pending} :
    read ⟨.query pending left clause query :: frames, waiting, .expr e⟩ rest
      = read ⟨.query pending left clause (query.add clause (waiting.finish e)) :: frames, [], .item⟩ rest := by
  cases rest with
  | nil => rfl
  | cons t ts =>
    have ht : t ∈ boundaries := h t rfl
    have hstep : step ⟨.query pending left clause query :: frames, waiting, .expr e⟩ t
        = step ⟨.query pending left clause (query.add clause (waiting.finish e)) :: frames, [], .item⟩ t := by
      simp only [boundaries, List.mem_cons, List.not_mem_nil, or_false] at ht
      rcases ht with rfl | rfl | rfl | rfl | rfl <;> rfl
    rw [read, read, hstep]

end SqlReader

/-- the tokens of the expression are read as said, whatever waits in front of them -/
def Expr.IsRead (e : Expr) : Prop :=
  ∀ qualified frames pending rest, Avoids stoppers rest →
    SqlReader.read ⟨frames, pending, .operand⟩ (slotTokens (exprSlots qualified e) ++ rest)
      = SqlReader.read ⟨frames, (e.readFrom qualified pending).1, .expr (e.readFrom qualified pending).2⟩ rest

def Relation.IsRead (r : Relation) : Prop :=
  ∀ frames pending left rest,
    SqlReader.read ⟨frames, pending, .query left⟩ (slotTokens (selectSlots false r) ++ .symbol ")" :: rest)
      = SqlReader.read ⟨frames, pending, .expr (.member left r.asRead)⟩ rest

namespace Expr.IsRead

open SqlReader

variable {frames : List Frame} {pending : Pending} {left : SqlExpr} {clause : Clause} {query : SqlQuery}
  {qualified : Bool} {rest : List Token} {e : Expr}

/-- where nothing waits that binds as tightly as a test -/
theorem of_loose (h : e.IsRead) (hloose : pending.Loose) (hrest : Avoids stoppers rest) :
    read ⟨frames, pending, .operand⟩ (slotTokens (exprSlots qualified e) ++ rest)
      = read ⟨frames, pending, .expr (e.asRead qualified)⟩ rest := by
  rw [h qualified frames pending rest hrest, readFrom_of_loose hloose]

theorem literal (l : Literal) : (Expr.literal l).IsRead := by
  intro qualified frames pending rest _
  rw [exprSlots]
  exact read_constant l

theorem attr (a : Attribute) : (Expr.attr a).IsRead := by
  intro qualified frames pending rest hrest
  rw [exprSlots]
  exact read_name a hrest

theorem binary (op : BinaryOp) (t : DataType) {l r : Expr} (hl : l.IsRead) (hr : r.IsRead) :
    (Expr.binary op t l r).IsRead := by
  intro qualified frames pending rest _
  have hslots : slotTokens (exprSlots qualified (.binary op t l r)) ++ rest
      = .symbol "(" :: (slotTokens (exprSlots qualified l)
        ++ op.slot.fill id :: (slotTokens (exprSlots qualified r) ++ .symbol ")" :: rest)) := by
    rw [exprSlots]
    simp only [slotTokens_append, slotTokens_cons, slotTokens_nil, Slot.fill_symbol, List.append_assoc,
      List.cons_append, List.nil_append]
  have hopen : step ⟨frames, pending, .operand⟩ (.symbol "(")
      = some ⟨.group pending :: frames, [], .operand⟩ := rfl
  rw [hslots, read_cons hopen, hl.of_loose Pending.loose_nil (avoids_operator _ _), read_first_operator,
    hr qualified _ _ _ (avoids_cons (by decide))]
  have hclose : step ⟨.group pending :: frames, (r.readFrom qualified [(op, l.asRead qualified)]).1,
      .expr (r.readFrom qualified [(op, l.asRead qualified)]).2⟩ (.symbol ")")
      = some ⟨frames, pending, .expr ((Expr.binary op t l r).asRead qualified)⟩ := by
    rw [← finish_readFrom]
    rfl
  rw [read_cons hclose]
  rfl

theorem aggregate (f : AggregateFunc) (t : DataType) (h : e.IsRead) : (Expr.aggregate f t e).IsRead := by
  intro qualified frames pending rest _
  have hslots : slotTokens (exprSlots qualified (.aggregate f t e)) ++ rest
      = .word f.name :: .symbol "(" :: (slotTokens (exprSlots qualified e) ++ .symbol ")" :: rest) := by
    rw [exprSlots]
    simp only [slotTokens_append, slotTokens_cons, slotTokens_nil, Slot.fill_symbol, Slot.fill_word,
      List.append_assoc, List.cons_append, List.nil_append]
  have hname : step ⟨frames, pending, .operand⟩ (.word f.name) = some ⟨frames, pending, .word f.name⟩ := rfl
  have hopen : step ⟨frames, pending, .word f.name⟩ (.symbol "(")
      = some ⟨.call pending f.name :: frames, [], .operand⟩ := rfl
  have hclose : step ⟨.call pending f.name :: frames, [], .expr (e.asRead qualified)⟩ (.symbol ")")
      = some ⟨frames, pending, .expr (.call f.name (e.asRead qualified))⟩ := rfl
  rw [hslots, read_cons hname, read_cons hopen, h.of_loose Pending.loose_nil (avoids_cons (by decide)),
    read_cons hclose]
  rfl

theorem member (t : DataType) {r : Relation} (he : e.IsRead) (hr : r.IsRead) :
    (Expr.member t e r).IsRead := by
  intro qualified frames pending rest _
  have hslots : slotTokens (exprSlots qualified (.member t e r)) ++ rest
      = slotTokens (exprSlots qualified e) ++ .word "in" :: .symbol "("
        :: (slotTokens (selectSlots false r) ++ .symbol ")" :: rest) := by
    rw [exprSlots]
    simp only [slotTokens_append, slotTokens_cons, slotTokens_nil, Slot.fill_symbol, Slot.fill_word,
      List.append_assoc, List.cons_append, List.nil_append]
  have hin : ∀ (pending : Pending) x, step ⟨frames, pending, .expr x⟩ (.word "in")
      = some ⟨frames, (pending.reduce membershipLevel x).1,
        .test (pending.reduce membershipLevel x).2⟩ := fun _ _ => rfl
  have hopen : ∀ (pending : Pending) x, step ⟨frames, pending, .test x⟩ (.symbol "(")
      = some ⟨frames, pending, .query x⟩ := fun _ _ => rfl
  rw [hslots, he qualified _ _ _ (avoids_cons (by decide)), read_cons (hin _ _), read_cons (hopen _ _), hr]
  rfl

/-! ## items of a clause -/

theorem item (h : e.IsRead) (hrest : BeginsIn boundaries rest) :
    read ⟨.query pending left clause query :: frames, [], .operand⟩
        (slotTokens (exprSlots qualified e) ++ rest)
      = read ⟨.query pending left clause (query.add clause (e.asRead qualified)) :: frames, [], .item⟩
        rest := by
  rw [h.of_loose Pending.loose_nil (hrest.avoids (by decide)), read_boundary hrest]
  rfl

/-- more items of a clause with a comma in front of each -/
theorem more {es : List Expr} (h : ∀ e ∈ es, e.IsRead) (hclause : clause ≠ .condition)
    (hstart : clause.start = .operand) (hrest : BeginsIn boundaries rest) :
    read ⟨.query pending left clause query :: frames, [], .item⟩
        (es.flatMap (fun e => .symbol "," :: slotTokens (exprSlots qualified e)) ++ rest)
      = read ⟨.query pending left clause ((es.map (Expr.asRead qualified)).foldl (·.add clause) query)
        :: frames, [], .item⟩ rest := by
  induction es generalizing query with
  | nil => rfl
  | cons e es ih =>
    obtain ⟨he, hes⟩ := List.forall_mem_cons.mp h
    have hcomma : step ⟨.query pending left clause query :: frames, [], .item⟩ (.symbol ",")
        = some ⟨.query pending left clause query :: frames, [], .operand⟩ := by
      show afterItem frames pending left clause query (.symbol ",") = _
      rw [afterItem, if_neg (by decide), if_pos rfl, if_neg hclause, hstart]
    rw [List.flatMap_cons, List.append_assoc, List.cons_append, read_cons hcomma,
      he.item (beginsIn_flatMap (by decide) hrest), ih hes]
    rfl

theorem items {es : List Expr} (h : ∀ e ∈ es, e.IsRead) (hne : es ≠ []) (hclause : clause ≠ .condition)
    (hstart : clause.start = .operand) (hrest : BeginsIn boundaries rest) :
    read ⟨.query pending left clause query :: frames, [], .operand⟩
        ([.symbol ","].intercalate (es.map fun e => slotTokens (exprSlots qualified e)) ++ rest)
      = read ⟨.query pending left clause ((es.map (Expr.asRead qualified)).foldl (·.add clause) query)
        :: frames, [], .item⟩ rest := by
  obtain ⟨e, es, rfl⟩ := List.exists_cons_of_ne_nil hne
  obtain ⟨he, hes⟩ := List.forall_mem_cons.mp h
  rw [intercalate_cons, List.append_assoc, he.item (beginsIn_flatMap (by decide) hrest),
    more hes hclause hstart hrest]
  rfl

/-- more restrictions, with `and` in front of each, behind those that have been read -/
theorem conjoined {es : List Expr} (h : ∀ e ∈ es, e.IsRead) (hrest : BeginsIn boundaries rest)
    {waiting : Pending} {x front : SqlExpr}
    (hfront : waiting.reduce (BinaryOp.logic .and).level x = ([], front)) :
    read ⟨.query pending left .condition query :: frames, waiting, .expr x⟩
        (es.flatMap (fun e => .word "and" :: slotTokens (exprSlots qualified e)) ++ rest)
      = read ⟨.query pending left .condition (query.add .condition
          ((es.map (Expr.asRead qualified)).foldl (.binary (.logic .and)) front)) :: frames, [], .item⟩
        rest := by
  induction es generalizing waiting x front with
  | nil =>
    rw [List.flatMap_nil, List.nil_append, read_boundary hrest,
      ← Pending.finish_reduce (BinaryOp.logic .and).level, hfront]
    rfl
  | cons e es ih =>
    obtain ⟨he, hes⟩ := List.forall_mem_cons.mp h
    have hand : ∀ ts, read ⟨.query pending left .condition query :: frames, waiting, .expr x⟩
        (.word "and" :: ts)
        = read ⟨.query pending left .condition query :: frames, [(.logic .and, front)], .operand⟩ ts :=
      read_operator (.logic .and) hfront
    have hloose : Pending.Loose [(.logic .and, front)] := Pending.loose_cons (by decide) front []
    rw [List.flatMap_cons, List.append_assoc, List.cons_append, hand,
      he.of_loose hloose (avoids_flatMap (by decide) (hrest.avoids (by decide))), ih hes rfl]
    rfl

end Expr.IsRead

namespace Relation

open SqlReader

variable {frames : List Frame} {pending : Pending} {left : SqlExpr} {clause : Clause} {query : SqlQuery}
  {qualified : Bool} {rest : List Token}

theorem read_more_sources (names : List String) :
    read ⟨.query pending left .sources query :: frames, [], .item⟩
        (names.flatMap (fun name => [.symbol ",", .word name]) ++ rest)
      = read ⟨.query pending left .sources (names.foldl .addSource query) :: frames, [], .item⟩ rest := by
  induction names generalizing query with
  | nil => rfl
  | cons name names ih =>
    rw [List.flatMap_cons, List.append_assoc, List.foldl_cons, ← ih]
    rfl

theorem foldl_addSource (names : List String) :
    names.foldl .addSource query = { query with sources := query.sources ++ names } := by
  induction names generalizing query with
  | nil =>
    obtain ⟨columns, sources, condition, groups, orders⟩ := query
    rw [List.append_nil]
    rfl
  | cons name names ih =>
    rw [List.foldl_cons, ih]
    simp [SqlQuery.addSource]

theorem read_sources {names : List String} (hne : names ≠ []) :
    read ⟨.query pending left .sources query :: frames, [], .source⟩
        ([.symbol ","].intercalate (names.map fun name => [.word name]) ++ rest)
      = read ⟨.query pending left .sources { query with sources := query.sources ++ names } :: frames, [],
        .item⟩ rest := by
  obtain ⟨name, names, rfl⟩ := List.exists_cons_of_ne_nil hne
  rw [intercalate_cons, ← foldl_addSource, List.foldl_cons, ← read_more_sources]
  rfl

section

variable (frames pending left)

theorem read_condition {es : List Expr} (h : ∀ e ∈ es, e.IsRead) (hnone : query.condition = none)
    (hrest : BeginsIn boundaries rest) : ∃ c, (c = .sources ∨ c = .condition) ∧
    read ⟨.query pending left .sources query :: frames, [], .item⟩ (clauseTokens (.word "where") []
        (.word "and") (es.map fun e => slotTokens (exprSlots qualified e)) ++ rest)
      = read ⟨.query pending left c
          { query with condition := conjunction (es.map (Expr.asRead qualified)) } :: frames, [], .item⟩
        rest := by
  cases es with
  | nil =>
    obtain ⟨columns, sources, condition, groups, orders⟩ := query
    cases hnone
    exact ⟨.sources, .inl rfl, rfl⟩
  | cons e es =>
    obtain ⟨he, hes⟩ := List.forall_mem_cons.mp h
    have hwhere : step ⟨.query pending left .sources query :: frames, [], .item⟩ (.word "where")
        = some ⟨.query pending left .condition query :: frames, [], .operand⟩ := rfl
    refine ⟨.condition, .inr rfl, ?_⟩
    show read _ (.word "where" :: ([.word "and"].intercalate _ ++ rest)) = _
    rw [read_cons hwhere, intercalate_cons, List.append_assoc, he.of_loose Pending.loose_nil
      (avoids_flatMap (by decide) (hrest.avoids (by decide))), Expr.IsRead.conjoined hes hrest rfl]
    rfl

theorem read_clause {next : Clause} {keyword : String} (hnext : clause.next (.word keyword) = some next)
    (hby : next.opening = .by) (hcondition : next ≠ .condition) (hstart : next.start = .operand)
    {es : List Expr} (h : ∀ e ∈ es, e.IsRead) (hrest : BeginsIn boundaries rest) :
    ∃ c, (c = clause ∨ c = next) ∧
    read ⟨.query pending left clause query :: frames, [], .item⟩ (clauseTokens (.word keyword) [.word "by"]
        (.symbol ",") (es.map fun e => slotTokens (exprSlots qualified e)) ++ rest)
      = read ⟨.query pending left c ((es.map (Expr.asRead qualified)).foldl (·.add next) query) :: frames,
        [], .item⟩ rest := by
  cases es with
  | nil => exact ⟨clause, .inl rfl, rfl⟩
  | cons e es =>
    have hkeyword : step ⟨.query pending left clause query :: frames, [], .item⟩ (.word keyword)
        = some ⟨.query pending left next query :: frames, [], .by⟩ := by
      show afterItem frames pending left clause query (.word keyword) = _
      rw [afterItem, if_neg nofun, if_neg nofun, hnext, Option.map_some, hby]
    have hword : step ⟨.query pending left next query :: frames, [], .by⟩ (.word "by")
        = some ⟨.query pending left next query :: frames, [], .operand⟩ := rfl
    refine ⟨next, .inr rfl, ?_⟩
    show read _ (.word keyword :: .word "by" :: ([.symbol ","].intercalate _ ++ rest)) = _
    rw [read_cons hkeyword, read_cons hword]
    exact Expr.IsRead.items h (List.cons_ne_nil e es) hcondition hstart hrest

end

theorem foldl_add_eq (clause : Clause) (hclause : clause ≠ .condition) (xs : List SqlExpr) :
    xs.foldl (·.add clause) query =
      { query with
        columns := query.columns ++ if clause = .columns then xs else []
        groups := query.groups ++ if clause = .groups then xs else []
        orders := query.orders ++ if clause = .orders then xs else [] } := by
  induction xs generalizing query with
  | nil =>
    obtain ⟨columns, sources, condition, groups, orders⟩ := query
    simp
  | cons x xs ih =>
    rw [List.foldl_cons, ih]
    cases clause <;> simp_all [SqlQuery.add]

theorem read_end (hclause : clause ≠ .columns) :
    read ⟨.query pending left clause query :: frames, [], .item⟩ (.symbol ")" :: rest)
      = read ⟨frames, pending, .expr (.member left query)⟩ rest := by
  refine read_cons ?_ rest
  show afterItem frames pending left clause query (.symbol ")") = _
  rw [afterItem, if_pos rfl, if_neg hclause]

/-- the clauses behind the sources, and the end of the query -/
theorem read_clauses {r : Relation} (h : ∀ e ∈ r.exprs, e.IsRead) (hnone : query.condition = none) :
    read ⟨.query pending left .sources query :: frames, [], .item⟩ (r.clausesTokens (.symbol ")" :: rest))
      = read ⟨frames, pending, .expr (.member left
        { query with
          condition := r.asRead.condition
          groups := query.groups ++ r.asRead.groups
          orders := query.orders ++ r.asRead.orders })⟩ rest := by
  have hrestrictions : ∀ e ∈ r.restrictions, e.IsRead := fun e he => h e (by simp [exprs, he])
  have hgroups : ∀ e ∈ r.groups, e.IsRead := fun e he => h e (by simp [exprs, he])
  have horders : ∀ e ∈ r.orders, e.IsRead := fun e he => h e (by simp [exprs, he])
  have hend : BeginsIn boundaries (.symbol ")" :: rest) := beginsIn_cons (by decide)
  have horder : .word "order" ∈ boundaries := by decide
  have hgroup : .word "group" ∈ boundaries := by decide
  have hbeginOrder := beginsIn_clause_of_mem horder hend [.word "by"] (.symbol ",")
    (r.orders.map fun e => slotTokens (exprSlots (qualifies r.sources) e))
  have hbeginGroup := beginsIn_clause_of_mem hgroup hbeginOrder [.word "by"] (.symbol ",")
    (r.groups.map fun e => slotTokens (exprSlots (qualifies r.sources) e))
  unfold clausesTokens
  obtain ⟨c, hc, hcondition⟩ := read_condition frames pending left hrestrictions hnone hbeginGroup
  have hcgroups : c.next (.word "group") = some .groups := by rcases hc with rfl | rfl <;> rfl
  rw [hcondition]
  obtain ⟨d, hd, hgrouped⟩ := read_clause frames pending left hcgroups rfl (by decide) rfl hgroups
    hbeginOrder
  have hdorders : d.next (.word "order") = some .orders := by
    rcases hc with rfl | rfl <;> rcases hd with rfl | rfl <;> rfl
  rw [hgrouped]
  obtain ⟨f, hf, hordered⟩ := read_clause frames pending left hdorders rfl (by decide) rfl horders hend
  have hfcolumns : f ≠ .columns := by
    rcases hc with rfl | rfl <;> rcases hd with rfl | rfl <;> rcases hf with rfl | rfl <;> decide
  rw [hordered, read_end hfcolumns, foldl_add_eq .orders (by decide), foldl_add_eq .groups (by decide)]
  simp [asRead_eq]

theorem isRead_of_exprs {r : Relation} (hcolumns : r.columns ≠ []) (hsources : r.sources ≠ [])
    (h : ∀ e ∈ r.exprs, e.IsRead) : r.IsRead := by
  intro frames pending left rest
  have htokens : r.columns.map (Column.tokens (qualifies r.sources) false)
      = (r.columns.map Column.expr).map fun e => slotTokens (exprSlots (qualifies r.sources) e) := by
    rw [List.map_map]
    refine List.map_congr_left fun c _ => ?_
    show slotTokens (exprSlots _ c.expr ++ []) = _
    rw [List.append_nil]
    rfl
  have hselect : step ⟨frames, pending, .query left⟩ (.word "select")
      = some ⟨.query pending left .columns .empty :: frames, [], .operand⟩ := rfl
  have hfrom : ∀ query, step ⟨.query pending left .columns query :: frames, [], .item⟩ (.word "from")
      = some ⟨.query pending left .sources query :: frames, [], .source⟩ := fun _ => rfl
  rw [tokens_select, read_cons hselect, htokens, Expr.IsRead.items (fun e he => h e (by simp [exprs, he]))
    (by simpa using hcolumns) (by decide) rfl (beginsIn_cons (by decide)), read_cons (hfrom _), read_sources hsources,
    read_clauses h, foldl_add_eq .columns (by decide)]
  · rw [asRead_eq]
    simp [SqlQuery.empty]
  · rw [foldl_add_eq .columns (by decide)]
    rfl

end Relation

/-- an expression and a query are read as said, if they can be read at all -/
theorem structural_isRead :
    Structural (fun e => e.DeepLegible → e.IsRead) (fun r => r.DeepLegible → r.IsRead) where
  literal l _ := .literal l
  attr a _ := .attr a
  binary op t _ _ hl hr h := .binary op t (hl h.left) (hr h.right)
  aggregate f t _ he h := .aggregate f t (he h.operand)
  member t _ _ he hr h := .member t (he h.tested) (hr h.relation)
  relation _ hexprs h := Relation.isRead_of_exprs h.legible.columns_ne_nil h.legible.sources_ne_nil
    fun e he => hexprs e he (h.expr he)

/-- **The text of an expression is read** as `Expr.asRead` says. -/
theorem readExpr_exprText {e : Expr} (h : e.DeepLegible) (d : Dialect) (qualified : Bool) :
    readExpr (exprText d qualified e) = some (e.asRead qualified) := by
  have hread := structural_isRead.of_expr e h qualified [] [] [] avoids_nil
  rw [List.append_nil, e.readFrom_of_loose Pending.loose_nil] at hread
  rw [readExpr, (reads_exprText h qualified).lex_eq]
  exact hread

end TableAlgebra
