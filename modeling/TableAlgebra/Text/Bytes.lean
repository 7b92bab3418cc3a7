/-!
# Bytes of a text

Texts measured and cut by the bytes of their encoding.  A cut may only be made between two characters.
-/

namespace TableAlgebra

def byteLength : List Char → Nat
  | [] => 0
  | c :: cs => c.utf8Size + byteLength cs

def takeBytes? : Nat → List Char → Option (List Char)
  | 0, _ => some []
  | _ + 1, [] => none
  | n + 1, c :: cs =>
    if c.utf8Size ≤ n + 1 then (takeBytes? (n + 1 - c.utf8Size) cs).map (c :: ·) else none

/-- the text without its first bytes, if it has so many and they end with a character -/
def dropBytes? : Nat → List Char → Option (List Char)
  | 0, cs => some cs
  | _ + 1, [] => none
  | n + 1, c :: cs => if c.utf8Size ≤ n + 1 then dropBytes? (n + 1 - c.utf8Size) cs else none

/-- the text from the byte `first` up to the byte `last` -/
def slice? (first last : Nat) (cs : List Char) : Option (List Char) :=
  (dropBytes? first cs).bind (takeBytes? (last - first))

theorem byteLength_append (cs ds : List Char) :
    byteLength (cs ++ ds) = byteLength cs + byteLength ds := by
  induction cs with
  | nil => simp [byteLength]
  | cons c cs ih => simp [byteLength, ih, Nat.add_assoc]

/-- the bytes of a text with a first character, less those of the character -/
theorem byteLength_cons (c : Char) (cs : List Char) :
    ∃ n, byteLength (c :: cs) = n + 1 ∧ c.utf8Size ≤ n + 1 ∧
      n + 1 - c.utf8Size = byteLength cs := by
  have := c.utf8Size_pos
  exact ⟨c.utf8Size - 1 + byteLength cs, by simp only [byteLength]; omega, by omega, by omega⟩

/-- the bytes of the front of a text are the front -/
theorem takeBytes?_append (cs ds : List Char) :
    takeBytes? (byteLength cs) (cs ++ ds) = some cs := by
  induction cs with
  | nil => simp [byteLength, takeBytes?]
  | cons c cs ih =>
    obtain ⟨n, hn, hc, hr⟩ := byteLength_cons c cs
    rw [hn, List.cons_append, takeBytes?, if_pos hc, hr, ih]
    rfl

/-- without the bytes of its front a text is the rest -/
theorem dropBytes?_append (cs ds : List Char) :
    dropBytes? (byteLength cs) (cs ++ ds) = some ds := by
  induction cs with
  | nil => simp [byteLength, dropBytes?]
  | cons c cs ih =>
    obtain ⟨n, hn, hc, hr⟩ := byteLength_cons c cs
    rw [hn, List.cons_append, dropBytes?, if_pos hc, hr, ih]

/-- between a front and an end the slice is what stands there -/
theorem slice?_append (cs ds es : List Char) :
    slice? (byteLength cs) (byteLength cs + byteLength ds) (cs ++ ds ++ es) = some ds := by
  simp [slice?, dropBytes?_append, takeBytes?_append]

end TableAlgebra
