import TableAlgebra.Pattern.CharSet
import TableAlgebra.Pattern.Flags

/-!
# Patterns

Regular expressions as they are written: signs, sets, groups, repetitions, sequences and choices.  A
pattern is accepted if it is not nested too deeply, and if each of its parts fits the flags that hold
where it stands.
-/

namespace TableAlgebra

/-- A regular expression as it is written.  A change of flags on its own holds to the end of the group
around it. -/
inductive Pattern where
  | empty
  | sign (s : PatternSign)
  | set (s : CharSet)
  | flags (change : FlagChange)
  | group (change : FlagChange) (p : Pattern)
  | repetition (p : Pattern)
  | sequence (ps : List Pattern)
  | choice (ps : List Pattern)

namespace Pattern

/-- the sequence of some patterns; a single one is no sequence -/
def ofSequence : List Pattern → Pattern
  | [] => empty
  | [p] => p
  | ps => sequence ps

/-- the choice between some patterns; a single one is no choice -/
def ofChoice : List Pattern → Pattern
  | [] => empty
  | [p] => p
  | ps => choice ps

def isRepeatable : Pattern → Bool
  | empty | flags _ => false
  | _ => true

mutual

/-- the levels of groups, sets, repetitions, sequences and choices -/
def depth : Pattern → Nat
  | set s => s.depth
  | group _ p => p.depth + 1
  | repetition p => p.depth + 1
  | sequence ps => depthAll ps + 1
  | choice ps => depthAll ps + 1
  | _ => 0

def depthAll : List Pattern → Nat
  | [] => 0
  | p :: ps => max p.depth (depthAll ps)

end

mutual

/-- Whether characters are matched, and not bytes, after a pattern, if they are before it; none if a part
of the pattern does not fit.  At the end of a group the flags from before it hold again. -/
def unicode? (unicode : Bool) : Pattern → Option Bool
  | empty => some unicode
  | sign s => if s.fits unicode then some unicode else none
  | set s => if unicode || s.isAscii then some unicode else none
  | flags change => some (change.apply 'u' unicode)
  | group change p => (p.unicode? (change.apply 'u' unicode)).map fun _ => unicode
  | repetition p => p.unicode? unicode
  | sequence ps => unicodeAll? unicode ps
  | choice ps => unicodeAll? unicode ps

def unicodeAll? (unicode : Bool) : List Pattern → Option Bool
  | [] => some unicode
  | p :: ps =>
    match p.unicode? unicode with
    | some unicode => unicodeAll? unicode ps
    | none => none

end

def maxDepth : Nat := 250

/-- the pattern is not nested too deeply, and all its parts fit -/
def accepted (p : Pattern) : Bool := p.depth ≤ maxDepth && (p.unicode? true).isSome

theorem depthAll_append (ps qs : List Pattern) :
    depthAll (ps ++ qs) = max (depthAll ps) (depthAll qs) := by
  induction ps with
  | nil => simp [depthAll]
  | cons p ps ih => simp [depthAll, ih, Nat.max_assoc]

/-- patterns in a row hand the flags on -/
theorem unicodeAll?_append (unicode : Bool) (ps qs : List Pattern) :
    unicodeAll? unicode (ps ++ qs) =
      (unicodeAll? unicode ps).bind fun unicode => unicodeAll? unicode qs := by
  induction ps generalizing unicode with
  | nil => rfl
  | cons p ps ih =>
    simp only [List.cons_append, unicodeAll?]
    cases p.unicode? unicode with
    | none => rfl
    | some unicode => exact ih unicode

end Pattern

end TableAlgebra
