import TableAlgebra.Relation.Operators
import TableAlgebra.Sql.Dialect

/-!
# Queries

The text of an expression and of the query for a relation.  Every binary node stands in parentheses.
Attributes carry the name of their table where the relation reads more than one source.

An expression is written at the end of the text so far, which takes no longer than the text is long,
however deep the expression.  `exprText_binary` and the lemmas beside it give its text by its parts.
-/

namespace TableAlgebra

/-- the text of a literal in a statement; the dialect is asked for truth values -/
def Literal.sqlText (d : Dialect) : Literal → String
  | .boolean b => d.booleanLiteral b
  | l => l.text

/-- the name of an attribute, with that of its table in front if asked for -/
def Attribute.reference (a : Attribute) (qualified : Bool) : String :=
  match a.table? with
  | some table => if qualified then table ++ "." ++ a.name else a.name
  | none => a.name

/-- a keyword and the items that follow it, or nothing where there are none -/
def clauseText (keyword separator : String) (items : List String) : String :=
  if items.isEmpty then "" else keyword ++ separator.intercalate items

/-- a column of a query under its name: an attribute of that name speaks for itself -/
def aliased (rename : Bool) (key : String) (e : Expr) (text : String) : String :=
  let bare := match e.attribute? with
    | some a => a.name == key
    | none => false
  if rename && !bare then text ++ " as " ++ key else text

mutual

/-- a text with that of an expression at its end, the attributes with their tables if `qualified` -/
def exprAfter (d : Dialect) (qualified : Bool) (text : String) : Expr → String
  | .literal l => text ++ l.sqlText d
  | .attr a => text ++ a.reference qualified
  | .binary op _ l r =>
    exprAfter d qualified (exprAfter d qualified (text ++ "(") l ++ " " ++ op.symbol ++ " ") r ++ ")"
  | .aggregate f _ e => exprAfter d qualified (text ++ f.name ++ "(") e ++ ")"
  | .member _ e r => exprAfter d qualified text e ++ " in (" ++ selectText d false r ++ ")"

def exprTexts (d : Dialect) (qualified : Bool) : List Expr → List String
  | [] => []
  | e :: es => exprAfter d qualified "" e :: exprTexts d qualified es

def columnText (d : Dialect) (qualified rename : Bool) : Column → String
  | ⟨key, e⟩ => aliased rename key e (exprAfter d qualified "" e)

def columnTexts (d : Dialect) (qualified rename : Bool) : List Column → List String
  | [] => []
  | c :: cs => columnText d qualified rename c :: columnTexts d qualified rename cs

/-- the query for a relation; with `rename`, computed and renamed columns are given their names -/
def selectText (d : Dialect) (rename : Bool) : Relation → String
  | ⟨_, sources, columns, restrictions, groups, orders⟩ =>
    let qualified := decide (1 < sources.length)
    "select " ++ ", ".intercalate (columnTexts d qualified rename columns)
      ++ " from " ++ ", ".intercalate sources
      ++ clauseText " where " " and " (exprTexts d qualified restrictions)
      ++ clauseText " group by " ", " (exprTexts d qualified groups)
      ++ clauseText " order by " ", " (exprTexts d qualified orders)

end

/-- the text of an expression, the attributes with their tables if `qualified` -/
def exprText (d : Dialect) (qualified : Bool) (e : Expr) : String := exprAfter d qualified "" e

variable (d : Dialect) (qualified : Bool)

/-- what stands before an expression does not matter to its text -/
theorem exprAfter_append (front text : String) (e : Expr) :
    exprAfter d qualified (front ++ text) e = front ++ exprAfter d qualified text e := by
  cases e with
  | literal _ => simp only [exprAfter, String.append_assoc]
  | attr _ => simp only [exprAfter, String.append_assoc]
  | binary _ _ l r =>
    simp only [exprAfter, String.append_assoc, exprAfter_append _ _ l,
      exprAfter_append _ _ r]
  | aggregate _ _ e => simp only [exprAfter, String.append_assoc, exprAfter_append _ _ e]
  | member _ e _ => simp only [exprAfter, String.append_assoc, exprAfter_append _ _ e]

theorem exprAfter_eq (text : String) (e : Expr) :
    exprAfter d qualified text e = text ++ exprText d qualified e := by
  rw [exprText, ← exprAfter_append, String.append_empty]

theorem exprText_literal (l : Literal) :
    exprText d qualified (.literal l) = l.sqlText d := by
  simp [exprText, exprAfter]

theorem exprText_attr (a : Attribute) :
    exprText d qualified (.attr a) = a.reference qualified := by
  simp [exprText, exprAfter]

/-- a binary node: the sign between the operands, and all of it in parentheses -/
theorem exprText_binary (op : BinaryOp) (t : DataType) (l r : Expr) :
    exprText d qualified (.binary op t l r)
      = "(" ++ exprText d qualified l ++ " " ++ op.symbol ++ " " ++ exprText d qualified r ++ ")" := by
  rw [exprText, exprAfter]
  simp only [exprAfter_eq, String.append_assoc, String.empty_append]

/-- an aggregate: the name of the function, and the operand in parentheses -/
theorem exprText_aggregate (f : AggregateFunc) (t : DataType) (e : Expr) :
    exprText d qualified (.aggregate f t e) = f.name ++ "(" ++ exprText d qualified e ++ ")" := by
  rw [exprText, exprAfter]
  simp only [exprAfter_eq, String.append_assoc, String.empty_append]

/-- a membership test: the operand, and the query for the relation in parentheses -/
theorem exprText_member (t : DataType) (e : Expr) (r : Relation) :
    exprText d qualified (.member t e r)
      = exprText d qualified e ++ " in (" ++ selectText d false r ++ ")" := by
  rw [exprText, exprAfter]
  simp only [exprAfter_eq, String.append_assoc, String.empty_append]

theorem exprTexts_eq_map (es : List Expr) :
    exprTexts d qualified es = es.map (exprText d qualified) := by
  induction es with
  | nil => rfl
  | cons e es ih => rw [exprTexts, ih, List.map_cons, exprText]

theorem columnText_eq (rename : Bool) (c : Column) :
    columnText d qualified rename c = aliased rename c.key c.expr (exprText d qualified c.expr) := by
  obtain ⟨key, e⟩ := c
  rw [columnText, exprText]

theorem columnTexts_eq_map (rename : Bool) (cs : List Column) :
    columnTexts d qualified rename cs = cs.map (columnText d qualified rename) := by
  induction cs with
  | nil => rfl
  | cons c cs ih => rw [columnTexts, ih, List.map_cons]

end TableAlgebra
