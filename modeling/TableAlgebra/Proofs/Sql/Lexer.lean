import Mathlib.Data.List.Forall2
import TableAlgebra.Proofs.Number.Numeral
import TableAlgebra.Text.Identifier
import TableAlgebra.Text.Quoted

/-!
# Reading a statement token by token

The lexer that statements are held against.  It takes one character at a time: a string runs from a quote
to the next quote that is not doubled, a word over letters, digits and underscores, a numeral over what
can stand in a number.  Blanks separate tokens and are no tokens.  A text with a string that does not end,
with a comment outside of its strings or with a character that no token has is not read at all.

* `Token`, `lex`          the tokens, and the tokens of a text;
* `Token.Plain`           the tokens that statements are made of;
* `Mode`                  what has been read of the token under way;
* `uncommented_of_lex`    a text that is read has no comment outside of its strings;
* `Reads`, `Opens`        a text has these tokens, whatever follows it: after a delimiter, or at once;
* `reads_word`, `reads_numeral`, `reads_quote`   the texts of single tokens.
-/

namespace TableAlgebra

/-! ## tokens -/

/-- a token of a statement; a string token holds the string it stands for -/
inductive Token where
  | word (text : String)
  | numeral (text : String)
  | symbol (text : String)
  | string (text : String)
  deriving DecidableEq

/-- the operators and marks of statements -/
def statementSymbols : List String :=
  ["(", ")", ",", ".", "=", "<", ">", "<=", ">=", "!=", "+", "-", "*", "/", "%"]

/-- A token that statements are made of: identifiers, decimal numerals, their own operators and marks, and
strings. -/
def Token.Plain : Token → Prop
  | word text => isIdentifier text = true
  | numeral text => IsNumeral text
  | symbol text => text ∈ statementSymbols
  | string _ => True

/-- the token is a word or a symbol that statements are made of -/
def Token.isFixed : Token → Bool
  | word text => isIdentifier text
  | symbol text => statementSymbols.contains text
  | _ => false

theorem Token.plain_of_isFixed {t : Token} (h : t.isFixed = true) : t.Plain := by
  cases t with
  | word text => exact h
  | symbol text => exact List.contains_iff_mem.mp h
  | numeral text => exact nomatch h
  | string text => trivial

/-- the signs that may begin a longer operator or a comment -/
def isSign (c : Char) : Bool := ['<', '>', '!', '=', '+', '-', '*', '/', '%'].contains c

def isMark (c : Char) : Bool := ['(', ')', ',', '.', ';'].contains c

def isDigraph (c d : Char) : Bool := [('<', '='), ('>', '='), ('!', '='), ('<', '>')].contains (c, d)

/-- the two signs that open a comment -/
def isCommentOpener (c d : Char) : Bool := [('-', '-'), ('/', '*')].contains (c, d)

/-- what has been read of the token under way -/
inductive Mode where
  | between
  | word (read : List Char)
  | numeral (read : List Char)
  | string (read : List Char)
  /-- after a quote inside of a string, which is doubled or the last of it -/
  | quote (read : List Char)
  | sign (c : Char)
  deriving DecidableEq

namespace Mode

/-- a character between two tokens: it is passed over, is a token, or begins one -/
def opening (c : Char) : Option (List Token × Mode) :=
  if c.isWhitespace then some ([], between)
  else if c == '\'' then some ([], string [])
  else if isIdentifierStart c || c == '_' then some ([], word [c])
  else if isDigit c then some ([], numeral [c])
  else if isSign c then some ([], sign c)
  else if isMark c then some ([.symbol (String.singleton c)], between)
  else none

/-- a character that is not part of the token before it -/
def after (token : Token) (c : Char) : Option (List Token × Mode) :=
  (opening c).map fun (tokens, m) => (token :: tokens, m)

/-- takes one character: the tokens that end with it or before it, and what is under way then -/
def step : Mode → Char → Option (List Token × Mode)
  | between, c => opening c
  | word read, c =>
    if isIdentifierPart c then some ([], word (read ++ [c])) else after (.word (String.ofList read)) c
  | numeral read, c =>
    if isIdentifierPart c || c == '.' then some ([], numeral (read ++ [c]))
    else after (.numeral (String.ofList read)) c
  | string read, c => some ([], if c == '\'' then quote read else string (read ++ [c]))
  | quote read, c =>
    if c == '\'' then some ([], string (read ++ [c])) else after (.string (String.ofList read)) c
  | sign d, c =>
    if isDigraph d c then some ([.symbol (String.ofList [d, c])], between)
    else if isCommentOpener d c || d == '!' then none
    else after (.symbol (String.singleton d)) c

def finish : Mode → Option (List Token)
  | between => some []
  | word read => some [.word (String.ofList read)]
  | numeral read => some [.numeral (String.ofList read)]
  | string _ => none
  | quote read => some [.string (String.ofList read)]
  | sign d => if d == '!' then none else some [.symbol (String.singleton d)]

/-- takes the characters of a text one after the other -/
def run : Mode → List Char → Option (List Token × Mode)
  | m, [] => some ([], m)
  | m, c :: cs => do
    let (tokens, m) ← m.step c
    let (more, m) ← m.run cs
    return (tokens ++ more, m)

end Mode

def lex (text : String) : Option (List Token) := do
  let (tokens, m) ← Mode.between.run text.toList
  return tokens ++ (← m.finish)

namespace Mode

/-! ## one text after the other -/

theorem run_nil (m : Mode) : m.run [] = some ([], m) := rfl

theorem run_cons {m m' : Mode} {c : Char} {tokens : List Token} (h : m.step c = some (tokens, m'))
    (cs : List Char) : m.run (c :: cs) = (m'.run cs).map fun (more, m) => (tokens ++ more, m) := by
  rw [run, h]
  cases hcs : m'.run cs <;> simp [hcs]

theorem run_append {m m' : Mode} {cs : List Char} {tokens : List Token}
    (h : m.run cs = some (tokens, m')) (ds : List Char) :
    m.run (cs ++ ds) = (m'.run ds).map fun (more, m) => (tokens ++ more, m) := by
  induction cs generalizing m tokens with
  | nil =>
    obtain ⟨rfl, rfl⟩ := Prod.mk.inj (Option.some.inj h)
    simp
  | cons c cs ih =>
    rw [run] at h
    cases hc : m.step c with
    | none => simp [hc] at h
    | some p =>
      obtain ⟨ts, m₁⟩ := p
      cases hcs : m₁.run cs with
      | none => simp [hc, hcs] at h
      | some q =>
        obtain ⟨us, m₂⟩ := q
        simp only [hc, hcs, bind, Option.bind_some, pure, Option.some.injEq, Prod.mk.injEq] at h
        obtain ⟨rfl, rfl⟩ := h
        rw [List.cons_append, run_cons hc, ih hcs, Option.map_map]
        simp [Function.comp_def]

theorem run_append_eq_none {m : Mode} {cs : List Char} (h : m.run cs = none) (ds : List Char) :
    m.run (cs ++ ds) = none := by
  induction cs generalizing m with
  | nil => simp [run] at h
  | cons c cs ih =>
    cases hc : m.step c with
    | none => simp [run, hc]
    | some p =>
      obtain ⟨ts, m'⟩ := p
      rw [run_cons hc, Option.map_eq_none_iff] at h
      rw [List.cons_append, run_cons hc, ih h]
      rfl

end Mode

/-- no two signs that open a comment stand in the text but inside of a string -/
def Uncommented (text : String) : Prop :=
  ∀ front c d rest, text.toList = front ++ c :: d :: rest → isCommentOpener c d = true →
    ∃ tokens read, Mode.between.run front = some (tokens, .string read)

/-- outside of a string a comment cannot be read -/
theorem Mode.run_comment {m : Mode} (hm : ∀ read, m ≠ .string read) {c d : Char}
    (hcd : isCommentOpener c d = true) (rest : List Char) : m.run (c :: d :: rest) = none := by
  have hsigns : c = '-' ∧ d = '-' ∨ c = '/' ∧ d = '*' := by
    simpa [isCommentOpener] using hcd
  have hstep : m.step c = none ∨ ∃ tokens, m.step c = some (tokens, .sign c) := by
    rcases hsigns with ⟨rfl, rfl⟩ | ⟨rfl, rfl⟩ <;> cases m with
    | between => exact .inr ⟨_, rfl⟩
    | word read => exact .inr ⟨_, rfl⟩
    | numeral read => exact .inr ⟨_, rfl⟩
    | string read => exact absurd rfl (hm read)
    | quote read => exact .inr ⟨_, rfl⟩
    | sign e =>
      dsimp only [step]
      rw [if_neg (by simp [isDigraph])]
      split
      · exact .inl rfl
      · exact .inr ⟨_, rfl⟩
  have hsign : (sign c).step d = none := by
    rcases hsigns with ⟨rfl, rfl⟩ | ⟨rfl, rfl⟩ <;> rfl
  rcases hstep with hstep | ⟨tokens, hstep⟩
  · rw [run, hstep]
    rfl
  · rw [run_cons hstep, run, hsign]
    rfl

/-- A text that is read has no comment outside of its strings. -/
theorem uncommented_of_lex {text : String} {tokens : List Token} (h : lex text = some tokens) :
    Uncommented text := by
  intro front c d rest htext hcd
  cases hfront : Mode.between.run front with
  | none =>
    rw [lex, htext, Mode.run_append_eq_none hfront] at h
    exact nomatch h
  | some p =>
    obtain ⟨before, m⟩ := p
    by_cases hm : ∃ read, m = .string read
    · obtain ⟨read, rfl⟩ := hm
      exact ⟨before, read, rfl⟩
    · have hcomment := Mode.run_comment (fun read hread => hm ⟨read, hread⟩) hcd rest
      rw [lex, htext, Mode.run_append hfront, hcomment] at h
      exact nomatch h

/-! ## texts and their tokens -/

/-- the characters that end the token before them without being part of it -/
def isDelimiter (c : Char) : Bool := [' ', ',', '(', ')'].contains c

/-- the tokens that a text or a delimiter after it completes -/
def Mode.Closes (m : Mode) (tokens : List Token) : Prop :=
  m.finish = some tokens ∧
    ∀ c, isDelimiter c = true → m.step c = (opening c).map fun (more, m) => (tokens ++ more, m)

/-- a text has the given tokens, all of them plain, if it stands between two tokens and a delimiter or
nothing follows -/
structure Reads (text : String) (tokens : List Token) : Prop where
  plain : ∀ t ∈ tokens, t.Plain
  run : ∃ front m back, Mode.between.run text.toList = some (front, m) ∧ m.Closes back ∧
    front ++ back = tokens

/-- a text has the given tokens, all of them plain, if it stands between two tokens, whatever follows -/
structure Opens (text : String) (tokens : List Token) : Prop where
  plain : ∀ t ∈ tokens, t.Plain
  run : Mode.between.run text.toList = some (tokens, .between)

/-- the text begins with a delimiter -/
def isDelimited (text : String) : Bool := text.toList.head?.any isDelimiter

/-- a text that can stand between two others -/
structure Separates (text : String) (tokens : List Token) : Prop where
  delimited : isDelimited text = true
  opens : Opens text tokens

/-- a text that can stand after another one -/
structure Ends (text : String) (tokens : List Token) : Prop where
  delimited : isDelimited text = true
  reads : Reads text tokens

theorem closes_between : Mode.between.Closes [] :=
  ⟨rfl, fun c _ => by simp [Mode.step]⟩

/-- the texts that every statement of a kind has -/
theorem Opens.of_fixed {text : String} {tokens : List Token} (hfixed : tokens.all Token.isFixed = true)
    (hrun : Mode.between.run text.toList = some (tokens, .between)) : Opens text tokens :=
  ⟨fun t ht => Token.plain_of_isFixed (List.all_eq_true.mp hfixed t ht), hrun⟩

theorem Separates.of_fixed {text : String} {tokens : List Token}
    (hfixed : tokens.all Token.isFixed = true) (hdelimited : isDelimited text = true)
    (hrun : Mode.between.run text.toList = some (tokens, .between)) : Separates text tokens :=
  ⟨hdelimited, .of_fixed hfixed hrun⟩

theorem Opens.reads {text : String} {tokens : List Token} (h : Opens text tokens) :
    Reads text tokens :=
  ⟨h.plain, tokens, .between, [], h.run, closes_between, List.append_nil tokens⟩

theorem Separates.ends {text : String} {tokens : List Token} (h : Separates text tokens) :
    Ends text tokens :=
  ⟨h.delimited, h.opens.reads⟩

theorem opens_empty : Opens "" [] := .of_fixed rfl rfl

theorem isDelimited_append {a : String} (h : isDelimited a = true) (b : String) :
    isDelimited (a ++ b) = true := by
  unfold isDelimited at h ⊢
  rw [String.toList_append]
  cases ha : a.toList with
  | nil => simp [ha] at h
  | cons c cs => simpa [ha] using h

theorem Reads.lex_eq {text : String} {tokens : List Token} (h : Reads text tokens) :
    lex text = some tokens := by
  obtain ⟨-, front, m, back, hrun, hclose, rfl⟩ := h
  rw [lex, hrun]
  simp [hclose.1]

theorem Opens.append {a b : String} {ts us : List Token} (ha : Opens a ts) (hb : Reads b us) :
    Reads (a ++ b) (ts ++ us) := by
  obtain ⟨hplain, front, m, back, hrun, hclose, rfl⟩ := hb
  refine ⟨List.forall_mem_append.mpr ⟨ha.plain, hplain⟩, ts ++ front, m, back, ?_, hclose,
    List.append_assoc ts front back⟩
  rw [String.toList_append, Mode.run_append ha.run, hrun]
  rfl

/-- a delimiter after a text reads as it does between two tokens -/
theorem run_of_closes {m : Mode} {back : List Token} (h : m.Closes back) {cs : List Char}
    (hcs : cs.head?.any isDelimiter = true) :
    m.run cs = (Mode.between.run cs).map fun (more, m) => (back ++ more, m) := by
  cases cs with
  | nil => simp at hcs
  | cons c cs =>
    have hc : isDelimiter c = true := by simpa using hcs
    have hstep := h.2 c hc
    have hbetween : Mode.between.step c = Mode.opening c := rfl
    rw [Mode.run, Mode.run, hstep, hbetween]
    cases Mode.opening c with
    | none => rfl
    | some p =>
      obtain ⟨ts, m'⟩ := p
      cases hm : m'.run cs with
      | none => simp [hm]
      | some q => simp [hm, List.append_assoc]

theorem Reads.append_separator {a b : String} {ts us : List Token} (ha : Reads a ts)
    (hb : Separates b us) : Opens (a ++ b) (ts ++ us) := by
  obtain ⟨hplain, front, m, back, hrun, hclose, rfl⟩ := ha
  refine ⟨List.forall_mem_append.mpr ⟨hplain, hb.opens.plain⟩, ?_⟩
  rw [String.toList_append, Mode.run_append hrun, run_of_closes hclose hb.delimited, hb.opens.run]
  simp

theorem Reads.append {a b : String} {ts us : List Token} (ha : Reads a ts) (hb : Ends b us) :
    Reads (a ++ b) (ts ++ us) := by
  obtain ⟨hplain, front, m, back, hrun, hclose, rfl⟩ := ha
  obtain ⟨hdelimited, hplain', front', m', back', hrun', hclose', rfl⟩ := hb
  refine ⟨List.forall_mem_append.mpr ⟨hplain, hplain'⟩, front ++ back ++ front', m', back', ?_, hclose',
    by simp⟩
  rw [String.toList_append, Mode.run_append hrun, run_of_closes hclose hdelimited, hrun']
  simp

theorem Separates.append {a b : String} {ts us : List Token} (ha : Separates a ts)
    (hb : Reads b us) : Ends (a ++ b) (ts ++ us) :=
  ⟨isDelimited_append ha.delimited b, ha.opens.append hb⟩

theorem reads_intercalate {separator : String} {between : List Token}
    (h : Separates separator between) {texts : List String} {tokens : List (List Token)}
    (hread : List.Forall₂ Reads texts tokens) :
    Reads (separator.intercalate texts) (between.intercalate tokens) := by
  induction hread with
  | nil =>
    rw [String.intercalate_nil, List.intercalate_nil]
    exact opens_empty.reads
  | @cons a ts as tss ha hrest ih =>
    cases hrest with
    | nil =>
      rw [String.intercalate_singleton, List.intercalate_singleton]
      exact ha
    | cons =>
      rw [String.intercalate_cons_cons, List.intercalate_cons_cons]
      exact (ha.append_separator h).append ih

/-! ## texts of one token -/

theorem isDelimiter_iff {c : Char} : isDelimiter c = true ↔ c = ' ' ∨ c = ',' ∨ c = '(' ∨ c = ')' := by
  simp [isDelimiter]

/-- a token that no delimiter is part of is closed by each of them -/
theorem Mode.closes_of_after {m : Mode} {token : Token} (hfinish : m.finish = some [token])
    (hstep : ∀ c, isDelimiter c = true → m.step c = after token c) : m.Closes [token] := by
  refine ⟨hfinish, fun c hc => ?_⟩
  rw [hstep c hc]
  rfl

theorem closes_word (read : List Char) : (Mode.word read).Closes [.word (String.ofList read)] := by
  refine Mode.closes_of_after rfl fun c hc => ?_
  rcases isDelimiter_iff.mp hc with rfl | rfl | rfl | rfl <;> rfl

theorem closes_numeral (read : List Char) :
    (Mode.numeral read).Closes [.numeral (String.ofList read)] := by
  refine Mode.closes_of_after rfl fun c hc => ?_
  rcases isDelimiter_iff.mp hc with rfl | rfl | rfl | rfl <;> rfl

theorem closes_quote (read : List Char) :
    (Mode.quote read).Closes [.string (String.ofList read)] := by
  refine Mode.closes_of_after rfl fun c hc => ?_
  rcases isDelimiter_iff.mp hc with rfl | rfl | rfl | rfl <;> rfl

theorem closes_star : (Mode.sign '*').Closes [.symbol "*"] := by
  refine Mode.closes_of_after rfl fun c hc => ?_
  rcases isDelimiter_iff.mp hc with rfl | rfl | rfl | rfl <;> rfl

theorem Ends.of_fixed {text : String} {front back : List Token} {m : Mode} (hclose : m.Closes back)
    (hrun : Mode.between.run text.toList = some (front, m)) (hdelimited : isDelimited text = true)
    (hfixed : (front ++ back).all Token.isFixed = true) : Ends text (front ++ back) :=
  ⟨hdelimited, fun t ht => Token.plain_of_isFixed (List.all_eq_true.mp hfixed t ht),
    front, m, back, hrun, hclose, rfl⟩

theorem isIdentifierStart_of_digit {c : Char} (h : isDigit c = true) :
    isIdentifierStart c = false := by
  simp only [isDigit, isIdentifierStart, Bool.and_eq_true, Bool.or_eq_false_iff, Bool.and_eq_false_iff,
    decide_eq_true_eq, decide_eq_false_iff_not, Char.le_def, UInt32.le_iff_toNat_le] at h ⊢
  have h0 : '0'.val.toNat = 48 := rfl
  have h9 : '9'.val.toNat = 57 := rfl
  have ha : 'a'.val.toNat = 97 := rfl
  have hA : 'A'.val.toNat = 65 := rfl
  omega

theorem isIdentifierPart_of_digit {c : Char} (h : isDigit c = true) : isIdentifierPart c = true := by
  unfold isDigit at h
  simp [isIdentifierPart, h]

theorem isWhitespace_of_part {c : Char} (h : isIdentifierPart c = true) :
    c.isWhitespace = false ∧ (c == '\'') = false := by
  constructor
  · rw [← Bool.not_eq_true]
    intro hc
    simp only [Char.isWhitespace, Bool.or_eq_true, decide_eq_true_eq] at hc
    rcases hc with ((rfl | rfl) | rfl) | rfl <;> exact absurd h (by decide)
  · rw [beq_eq_false_iff_ne]
    rintro rfl
    exact absurd h (by decide)

theorem opening_of_start {c : Char} (h : isIdentifierStart c = true) :
    Mode.opening c = some ([], .word [c]) := by
  obtain ⟨hblank, hquote⟩ := isWhitespace_of_part (isIdentifierPart_of_start h)
  simp [Mode.opening, hblank, hquote, h]

theorem opening_of_digit {c : Char} (h : isDigit c = true) :
    Mode.opening c = some ([], .numeral [c]) := by
  obtain ⟨hblank, hquote⟩ := isWhitespace_of_part (isIdentifierPart_of_digit h)
  have hscore : (c == '_') = false := by
    rw [beq_eq_false_iff_ne]
    rintro rfl
    exact absurd h (by decide)
  simp [Mode.opening, hblank, hquote, hscore, isIdentifierStart_of_digit h, h]

theorem run_word {read cs : List Char} (h : ∀ c ∈ cs, isIdentifierPart c = true) :
    (Mode.word read).run cs = some ([], .word (read ++ cs)) := by
  induction cs generalizing read with
  | nil => rw [Mode.run_nil, List.append_nil]
  | cons c cs ih =>
    have hstep : (Mode.word read).step c = some ([], .word (read ++ [c])) :=
      if_pos (h c List.mem_cons_self)
    rw [Mode.run_cons hstep, ih fun d hd => h d (List.mem_cons_of_mem c hd)]
    simp

theorem run_numeral {read cs : List Char} (h : ∀ c ∈ cs, isDigit c = true ∨ c = '.') :
    (Mode.numeral read).run cs = some ([], .numeral (read ++ cs)) := by
  induction cs generalizing read with
  | nil => rw [Mode.run_nil, List.append_nil]
  | cons c cs ih =>
    have hpart : (isIdentifierPart c || c == '.') = true := by
      rcases h c List.mem_cons_self with hc | rfl
      · rw [isIdentifierPart_of_digit hc, Bool.true_or]
      · rfl
    have hstep : (Mode.numeral read).step c = some ([], .numeral (read ++ [c])) := if_pos hpart
    rw [Mode.run_cons hstep, ih fun d hd => h d (List.mem_cons_of_mem c hd)]
    simp

/-- inside of a string the doubled quotes are read back as single ones -/
theorem run_encode (read cs : List Char) :
    (Mode.string read).run (Quoted.encode cs) = some ([], .string (read ++ cs)) := by
  induction cs generalizing read with
  | nil => rw [Quoted.encode_nil, Mode.run_nil, List.append_nil]
  | cons c cs ih =>
    rw [Quoted.encode_cons]
    by_cases h : c = '\''
    · subst h
      have hfirst : (Mode.string read).step '\'' = some ([], .quote read) := rfl
      have hsecond : (Mode.quote read).step '\'' = some ([], .string (read ++ ['\''])) := rfl
      rw [if_pos rfl, Mode.run_cons hfirst, Mode.run_cons hsecond, ih]
      simp
    · have hstep : (Mode.string read).step c = some ([], .string (read ++ [c])) := by
        simp [Mode.step, h]
      rw [if_neg h, Mode.run_cons hstep, ih]
      simp

theorem run_identifier {name : String} (h : isIdentifier name = true) :
    Mode.between.run name.toList = some ([], .word name.toList) := by
  unfold isIdentifier at h
  cases hname : name.toList with
  | nil => simp [hname, isIdentifierChars] at h
  | cons c cs =>
    rw [hname, isIdentifierChars_cons, Bool.and_eq_true, List.all_eq_true] at h
    have hstep : Mode.between.step c = some ([], .word [c]) := opening_of_start h.1
    rw [Mode.run_cons hstep, run_word h.2]
    rfl

theorem reads_word {name : String} (h : isIdentifier name = true) : Reads name [.word name] := by
  refine ⟨List.forall_mem_singleton.mpr h, [], .word name.toList, _, run_identifier h,
    closes_word name.toList, ?_⟩
  rw [String.ofList_toList]
  rfl

theorem reads_qualified {table name : String} (htable : isIdentifier table = true)
    (hname : isIdentifier name = true) :
    Reads (table ++ "." ++ name) [.word table, .symbol ".", .word name] := by
  have hpoint : (Mode.word table.toList).run (".".toList ++ name.toList)
      = some ([.word table, .symbol "."], .word name.toList) := by
    have hstep : (Mode.word table.toList).step '.' = some ([.word table, .symbol "."], .between) := by
      show Mode.after (.word (String.ofList table.toList)) '.' = _
      rw [String.ofList_toList]
      rfl
    have hcons : ".".toList ++ name.toList = '.' :: name.toList := rfl
    rw [hcons, Mode.run_cons hstep, run_identifier hname]
    rfl
  refine ⟨?_, [.word table, .symbol "."], .word name.toList, _, ?_, closes_word name.toList, ?_⟩
  · intro t ht
    simp only [List.mem_cons, List.not_mem_nil, or_false] at ht
    rcases ht with rfl | rfl | rfl
    · exact htable
    · exact Token.plain_of_isFixed rfl
    · exact hname
  · rw [String.append_assoc, String.toList_append, String.toList_append,
      Mode.run_append (run_identifier htable), hpoint]
    rfl
  · rw [String.ofList_toList]
    rfl

/-- a quoted string is one token, which stands for the string -/
theorem reads_quote (text : String) : Reads (quote text) [.string text] := by
  refine ⟨List.forall_mem_singleton.mpr trivial, [], .quote text.toList, _, ?_,
    closes_quote text.toList, ?_⟩
  · have hopen : Mode.between.step '\'' = some ([], .string []) := rfl
    have hclose : (Mode.string text.toList).run ['\''] = some ([], .quote text.toList) := rfl
    rw [toList_quote, Mode.run_cons hopen, Mode.run_append (run_encode [] text.toList),
      List.nil_append, hclose]
    rfl
  · rw [String.ofList_toList]
    rfl

/-! ## numerals -/

theorem reads_numeral {text : String} (h : IsNumeral text) : Reads text [.numeral text] := by
  obtain ⟨c, cs, htext, hc, hcs⟩ := h.toList_eq
  refine ⟨List.forall_mem_singleton.mpr h, [], .numeral text.toList, _, ?_,
    closes_numeral text.toList, ?_⟩
  · have hstep : Mode.between.step c = some ([], .numeral [c]) := opening_of_digit hc
    rw [htext, Mode.run_cons hstep, run_numeral hcs]
    rfl
  · rw [String.ofList_toList]
    rfl

/-- a minus in front of a numeral is a sign of its own -/
theorem reads_negative {text : String} (h : IsNumeral text) :
    Reads ("-" ++ text) [.symbol "-", .numeral text] := by
  obtain ⟨c, cs, htext, hc, hcs⟩ := h.toList_eq
  refine ⟨List.forall_mem_cons.mpr ⟨Token.plain_of_isFixed rfl, List.forall_mem_singleton.mpr h⟩,
    [.symbol "-"], .numeral text.toList, _, ?_, closes_numeral text.toList, ?_⟩
  · have hminus : Mode.between.step '-' = some ([], .sign '-') := rfl
    have hdigraph : isDigraph '-' c = false := by simp [isDigraph]
    have hopener : isCommentOpener '-' c = false := by
      rw [← Bool.not_eq_true]
      intro hd
      have hdash : c = '-' := by simpa [isCommentOpener] using hd
      rw [hdash] at hc
      exact absurd hc (by decide)
    have hstep : (Mode.sign '-').step c = some ([.symbol "-"], .numeral [c]) := by
      simp [Mode.step, hdigraph, hopener, Mode.after, opening_of_digit hc]
    have hcons : ("-" ++ text).toList = '-' :: c :: cs := by
      rw [String.toList_append, htext]
      rfl
    rw [hcons, Mode.run_cons hminus, Mode.run_cons hstep, run_numeral hcs, htext]
    rfl
  · rw [String.ofList_toList]
    rfl

end TableAlgebra
