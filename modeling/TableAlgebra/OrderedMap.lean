/-!
# Insertion-ordered maps

A map from names to values that remembers the order in which its names first came.  Setting a name
again gives it the new value in its old place.

`keys_insert_of_mem` and `keys_insert_of_not_mem` say what `insert` does to the names, and
`find?_insert` what it does to the values.
-/

namespace TableAlgebra

/-- entries in insertion order, no name twice -/
structure OrderedMap (α : Type) where
  entries : List (String × α)
  nodup : (entries.map Prod.fst).Nodup

namespace OrderedMap

variable {α : Type}

/-! ## entry lists -/

/-- gives `key` the value `value`: in its place if it is there, at the end if it is not -/
def setEntry (key : String) (value : α) : List (String × α) → List (String × α)
  | [] => [(key, value)]
  | e :: es => if e.1 = key then (key, value) :: es else e :: setEntry key value es

theorem keys_setEntry_of_mem {key : String} {value : α} {es : List (String × α)}
    (h : key ∈ es.map Prod.fst) : (setEntry key value es).map Prod.fst = es.map Prod.fst := by
  induction es with
  | nil => cases h
  | cons e es ih =>
    by_cases he : e.1 = key
    · simp [setEntry, he]
    · have h' : key ∈ es.map Prod.fst := by
        rcases List.mem_cons.mp h with h | h
        · exact absurd h.symm he
        · exact h
      simp only [setEntry, he, if_false, List.map_cons, ih h']

theorem keys_setEntry_of_not_mem {key : String} {value : α} {es : List (String × α)}
    (h : key ∉ es.map Prod.fst) :
    (setEntry key value es).map Prod.fst = es.map Prod.fst ++ [key] := by
  induction es with
  | nil => rfl
  | cons e es ih =>
    simp only [List.map_cons, List.mem_cons, not_or] at h
    have he : ¬ e.1 = key := fun he => h.1 he.symm
    simp only [setEntry, he, if_false, List.map_cons, ih h.2, List.cons_append]

theorem nodup_setEntry {key : String} {value : α} {es : List (String × α)}
    (h : (es.map Prod.fst).Nodup) : ((setEntry key value es).map Prod.fst).Nodup := by
  by_cases hk : key ∈ es.map Prod.fst
  · rw [keys_setEntry_of_mem hk]; exact h
  · rw [keys_setEntry_of_not_mem hk, List.nodup_append]
    refine ⟨h, by simp, ?_⟩
    intro a ha b hb hab
    simp only [List.mem_singleton] at hb
    exact hk (hb ▸ hab ▸ ha)

theorem lookup_entry_cons (key other : String) (value : α) (es : List (String × α)) :
    ((key, value) :: es).lookup other = if other = key then some value else es.lookup other := by
  rw [List.lookup_cons]
  by_cases h : other = key
  · rw [beq_iff_eq.mpr h, if_pos h]
  · rw [beq_eq_false_iff_ne.mpr h, if_neg h]

theorem lookup_setEntry (key other : String) (value : α) (es : List (String × α)) :
    (setEntry key value es).lookup other
      = if other = key then some value else es.lookup other := by
  induction es with
  | nil => rw [setEntry, lookup_entry_cons]
  | cons e es ih =>
    obtain ⟨name, old⟩ := e
    by_cases hn : name = key
    · subst hn
      rw [setEntry, if_pos rfl, lookup_entry_cons, lookup_entry_cons]
      split <;> rfl
    · rw [setEntry, if_neg hn, lookup_entry_cons, lookup_entry_cons, ih]
      by_cases ho : other = name
      · have hk : ¬ other = key := fun hk => hn (ho.symm.trans hk)
        simp only [if_neg hk, if_pos ho]
      · rw [if_neg ho, if_neg ho]

/-! ## maps -/

def empty : OrderedMap α := ⟨[], List.nodup_nil⟩

instance : EmptyCollection (OrderedMap α) := ⟨empty⟩

instance : Inhabited (OrderedMap α) := ⟨empty⟩

/-- sets a name: a name already there keeps its place and takes the new value -/
def insert (m : OrderedMap α) (key : String) (value : α) : OrderedMap α :=
  ⟨setEntry key value m.entries, nodup_setEntry m.nodup⟩

def ofList (es : List (String × α)) : OrderedMap α :=
  es.foldl (fun m e => m.insert e.1 e.2) empty

def find? (m : OrderedMap α) (key : String) : Option α := m.entries.lookup key

def keys (m : OrderedMap α) : List String := m.entries.map Prod.fst

def values (m : OrderedMap α) : List α := m.entries.map Prod.snd

def size (m : OrderedMap α) : Nat := m.entries.length

def isEmpty (m : OrderedMap α) : Bool := m.entries.isEmpty

def contains (m : OrderedMap α) (key : String) : Bool := (m.find? key).isSome

theorem nodup_keys (m : OrderedMap α) : m.keys.Nodup := m.nodup

theorem keys_insert_of_mem {m : OrderedMap α} {key : String} {value : α} (h : key ∈ m.keys) :
    (m.insert key value).keys = m.keys := keys_setEntry_of_mem h

theorem keys_insert_of_not_mem {m : OrderedMap α} {key : String} {value : α} (h : key ∉ m.keys) :
    (m.insert key value).keys = m.keys ++ [key] := keys_setEntry_of_not_mem h

theorem find?_insert (m : OrderedMap α) (key other : String) (value : α) :
    (m.insert key value).find? other = if other = key then some value else m.find? other :=
  lookup_setEntry key other value m.entries

end OrderedMap

end TableAlgebra
