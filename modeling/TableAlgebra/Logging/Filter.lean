import TableAlgebra.Database.Event
import TableAlgebra.Pattern.Group
import TableAlgebra.Number.Decimal
import TableAlgebra.Text.Bytes
import TableAlgebra.Text.Pieces
import TableAlgebra.Text.Blank

/-!
# Log filters

A filter is a list of directives with commas between them.  A directive is a level for everything, or a
target with a level for the events whose target begins with it.  Between the target and the level it may
name a span and a field in brackets.  A directive about a span, or about the value of a field, holds only
inside of spans; there are none here, so it lets nothing through.  A directive that names a field holds
for events with that field.

The directive with the longest target that fits decides.  Of two for one target one with a field goes
first, of two with fields the one whose field comes later in the alphabet, and of two that are alike the
later one.  A target without a level lets everything through, and a filter without directives lets errors
through.
-/

namespace TableAlgebra

/-! ## thresholds -/

/-- the least grave level that is let through; none for no event at all -/
abbrev Threshold := Option Level

namespace Threshold

/-- the threshold of a number: zero is off, five lets everything through -/
def ofNumber? : Nat → Option Threshold
  | 0 => some none
  | 1 => some (some .error)
  | 2 => some (some .warn)
  | 3 => some (some .info)
  | 4 => some (some .debug)
  | 5 => some (some .trace)
  | _ => none

/-- the threshold of a level's name or of `off`, in any letter case -/
def ofName? (cs : List Char) : Option Threshold :=
  let word := String.ofList (cs.map Char.toLower)
  if word == "off" then some none
  else if word == "error" then some (some .error)
  else if word == "warn" then some (some .warn)
  else if word == "info" then some (some .info)
  else if word == "debug" then some (some .debug)
  else if word == "trace" then some (some .trace)
  else none

/-- the number that a row of digits stands for, with a plus sign before it perhaps -/
def number? (cs : List Char) : Option Nat :=
  let digits := match cs with
    | '+' :: ds => ds
    | ds => ds
  if digits.isEmpty || !digits.all isDigit then none else some (natOfDigits digits)

/-- the threshold that a text stands for, a number or a name -/
def parse? (cs : List Char) : Option Threshold :=
  match number? cs with
  | some n => ofNumber? n
  | none => ofName? cs

def admits (t : Threshold) (level : Level) : Bool :=
  match t with
  | none => false
  | some least => level.rank ≤ least.rank

end Threshold

/-! ## directives -/

/-- the name of a field, and perhaps a number or a pattern for its value -/
structure FieldTest where
  name : List Char
  value : Option (List Char) := none
  deriving DecidableEq

/-- A field's name, and what stands between the first equals sign and the second.  A value that is no
number has to be a pattern. -/
def FieldTest.parse? (cs : List Char) : Option FieldTest :=
  match pieces '=' cs with
  | name :: value :: _ =>
    if (Binary64.ofText? (String.ofList value)).isSome || isPattern value then
      some { name, value := some value }
    else none
  | _ => if cs.isEmpty then none else some { name := cs }

/-- a threshold for the events with a target, inside a span and with a field; an empty target is for
all of them -/
structure Directive where
  target : List Char := []
  span : Option (List Char) := none
  field : Option FieldTest := none
  threshold : Threshold := some .trace
  deriving DecidableEq

namespace Directive

/-- a character that a target or a level may begin with -/
def opensTarget (c : Char) : Bool := c == '-' || c == ':' || c == '_' || isAlphanumeric c

/-- the directive holds outside of spans -/
def standsAlone (d : Directive) : Bool :=
  d.span.isNone && (d.field.bind FieldTest.value).isNone

/-- the directive holds for events with the target and the fields -/
def fits (d : Directive) (target : List Char) (fields : List (List Char)) : Bool :=
  d.target.isPrefixOf target && d.field.all fun f => fields.contains f.name

/-- of two directives the first goes before the second, although the second is the later one -/
def outranks (d e : Directive) : Bool :=
  if byteLength d.target != byteLength e.target then byteLength e.target < byteLength d.target
  else
    match d.field, e.field with
    | some f, some g => g.name < f.name
    | some _, none => true
    | none, _ => false

end Directive

/-! ## reading -/

/-- where the reading of a directive stands; a part being read begins at the byte `first` -/
inductive DirectivePlace where
  | start
  | target (first : Nat)
  | span (first : Nat)
  | field (first : Nat)
  | fieldEnd
  | spanEnd
  | level (first : Nat)
  deriving DecidableEq

/-- what has been read of a directive, and where the reading stands -/
structure DirectiveReading where
  place : DirectivePlace := .start
  directive : Directive := {}

namespace DirectiveReading

/-- One character further, which stands at the byte `i`.  The parts are cut out of `piece`. -/
def step? (piece : List Char) (i : Nat) (c : Char) (r : DirectiveReading) : Option DirectiveReading :=
  let d := r.directive
  match r.place with
  | .start =>
    if c == '[' then some { r with place := .span (i + 1) }
    else if Directive.opensTarget c then some { r with place := .target i }
    else none
  | .target first =>
    if c == '=' then
      (slice? first i piece).map fun target => ⟨.level (i + 1), { d with target }⟩
    else if c == '[' then
      (slice? first i piece).map fun target => ⟨.span (i + 1), { d with target }⟩
    else some r
  | .span first =>
    if c == ']' then
      (slice? first i piece).map fun span => ⟨.spanEnd, { d with span := some span }⟩
    else if c == '\x7b' then
      (slice? first i piece).map fun span =>
        ⟨.field (i + 1), { d with span := if span.isEmpty then none else some span }⟩
    else some r
  | .field first =>
    if c == '\x7d' then
      ((slice? first i piece).bind FieldTest.parse?).map fun field =>
        ⟨.fieldEnd, { d with field := some field }⟩
    else some r
  | .fieldEnd => if c == ']' then some { r with place := .spanEnd } else none
  | .spanEnd => if c == '=' then some { r with place := .level (i + 1) } else none
  | .level _ => some r

/-- the reading after characters, the first of which stands at the byte `i` -/
def run? (piece : List Char) (i : Nat) (r : DirectiveReading) :
    List Char → Option DirectiveReading
  | [] => some r
  | c :: cs => (r.step? piece i c).bind fun r => r.run? piece (i + c.utf8Size) cs

/-- The directive that has been read.  A text on its own is a level, or else a target; nothing after the
equals sign stands for the least grave level. -/
def finish? (piece : List Char) (r : DirectiveReading) : Option Directive :=
  let d := r.directive
  match r.place with
  | .target first =>
    (dropBytes? first piece).map fun text =>
      match Threshold.parse? text with
      | some threshold => { d with threshold }
      | none => { d with target := text }
  | .level first =>
    (dropBytes? first piece).bind fun text =>
      if text.isEmpty then some d
      else (Threshold.parse? text).map fun threshold => { d with threshold }
  | .spanEnd => some d
  | _ => none

end DirectiveReading

/-- The directive of a piece.  The signs between its parts are looked for with the blanks around the
piece taken off, but the parts are cut at those bytes out of the piece as it stands; so a blank in front
counts for the target. -/
def Directive.parse? (piece : List Char) : Option Directive :=
  (DirectiveReading.run? piece 0 {} (trimBlanksRight (piece.dropWhile isBlank))).bind
    (DirectiveReading.finish? piece)

/-! ## filters -/

abbrev LogFilter := List Directive

namespace LogFilter

/-- the filter that a text stands for; empty pieces are passed over -/
def parse? (text : String) : Option LogFilter :=
  ((pieces ',' text.toList).filter fun p => !p.isEmpty).mapM Directive.parse?

/-- of two directives that fit, the one that goes first -/
def better (chosen : Option Directive) (d : Directive) : Option Directive :=
  match chosen with
  | some c => if c.outranks d then some c else some d
  | none => some d

def threshold (filter : LogFilter) (target : String) (fields : List String) : Threshold :=
  if filter.isEmpty then some .error
  else
    let fitting := filter.filter fun d =>
      d.standsAlone && d.fits target.toList (fields.map String.toList)
    match fitting.foldl better none with
    | some d => d.threshold
    | none => none

/-- the filter lets an event with a target, fields and a level through -/
def enabled (filter : LogFilter) (target : String) (fields : List String) (level : Level) : Bool :=
  (filter.threshold target fields).admits level

end LogFilter

end TableAlgebra
