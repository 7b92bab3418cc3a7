import TableAlgebra.OrderedMap

/-!
# Maps over the values of an ordered map

A function on the values leaves the names and their order alone, so it can be applied before the names are
set or afterwards.  A new name is set at the end.

* `OrderedMap.map`                  the values taken through a function;
* `OrderedMap.ofList_map`           names set to such values give the map of the names set to the values;
* `OrderedMap.mem_entries_ofList`   what stands in a map was set.
-/

namespace TableAlgebra.OrderedMap

variable {α β : Type}

/-! ## entry lists -/

theorem mem_setEntry {key : String} {value : α} {es : List (String × α)} {e : String × α}
    (h : e ∈ setEntry key value es) : e ∈ es ∨ e = (key, value) := by
  induction es with
  | nil => exact .inr (List.mem_singleton.mp h)
  | cons d es ih =>
    rw [setEntry] at h
    split at h
    · rcases List.mem_cons.mp h with h | h
      · exact .inr h
      · exact .inl (List.mem_cons_of_mem d h)
    · rcases List.mem_cons.mp h with rfl | h
      · exact .inl List.mem_cons_self
      · exact (ih h).imp_left (List.mem_cons_of_mem d)

theorem setEntry_of_not_mem {key : String} {value : α} {es : List (String × α)}
    (h : key ∉ es.map Prod.fst) : setEntry key value es = es ++ [(key, value)] := by
  induction es with
  | nil => rfl
  | cons e es ih =>
    rw [List.map_cons, List.mem_cons, not_or] at h
    rw [setEntry, if_neg (Ne.symm h.1), ih h.2, List.cons_append]

theorem isSome_lookup_iff {key : String} {es : List (String × α)} :
    (es.lookup key).isSome = true ↔ key ∈ es.map Prod.fst := by
  induction es with
  | nil => simp
  | cons e es ih =>
    obtain ⟨name, value⟩ := e
    rw [lookup_entry_cons, List.map_cons, List.mem_cons, ← ih]
    by_cases h : key = name
    · simp [h]
    · rw [if_neg h, or_iff_right h]

theorem lookup_of_mem {key : String} {value : α} {es : List (String × α)} (hnodup : (es.map Prod.fst).Nodup)
    (h : (key, value) ∈ es) : es.lookup key = some value := by
  induction es with
  | nil => exact absurd h List.not_mem_nil
  | cons e es ih =>
    obtain ⟨name, other⟩ := e
    obtain ⟨hname, hnodup⟩ := List.nodup_cons.mp hnodup
    rw [lookup_entry_cons]
    rcases List.mem_cons.mp h with heq | h
    · obtain ⟨rfl, rfl⟩ := Prod.mk.inj heq
      rw [if_pos rfl]
    · have hkey : key ∈ es.map Prod.fst := List.mem_map.mpr ⟨(key, value), h, rfl⟩
      have hne : key ≠ name := fun heq => hname (heq ▸ hkey)
      rw [if_neg hne, ih hnodup h]

theorem setEntry_map (f : α → β) (key : String) (value : α) (es : List (String × α)) :
    setEntry key (f value) (es.map fun e => (e.1, f e.2))
      = (setEntry key value es).map fun e => (e.1, f e.2) := by
  induction es with
  | nil => rfl
  | cons e es ih =>
    rw [List.map_cons, setEntry, setEntry]
    split
    · rfl
    · rw [ih, List.map_cons]

theorem lookup_map (f : α → β) (key : String) (es : List (String × α)) :
    (es.map fun e => (e.1, f e.2)).lookup key = (es.lookup key).map f := by
  induction es with
  | nil => rfl
  | cons e es ih =>
    rw [List.map_cons, lookup_entry_cons, ih]
    obtain ⟨name, value⟩ := e
    rw [lookup_entry_cons]
    split <;> rfl

/-! ## maps -/

theorem contains_iff {m : OrderedMap α} {key : String} : m.contains key = true ↔ key ∈ m.keys :=
  isSome_lookup_iff

theorem find?_of_mem {m : OrderedMap α} {e : String × α} (h : e ∈ m.entries) : m.find? e.1 = some e.2 :=
  lookup_of_mem m.nodup h

theorem entries_insert_of_not_mem {m : OrderedMap α} {key : String} {value : α} (h : key ∉ m.keys) :
    (m.insert key value).entries = m.entries ++ [(key, value)] :=
  setEntry_of_not_mem h

def map (f : α → β) (m : OrderedMap α) : OrderedMap β where
  entries := m.entries.map fun e => (e.1, f e.2)
  nodup := by
    rw [List.map_map]
    exact m.nodup

theorem entries_map (f : α → β) (m : OrderedMap α) :
    (m.map f).entries = m.entries.map fun e => (e.1, f e.2) := rfl

@[simp] theorem keys_map (f : α → β) (m : OrderedMap α) : (m.map f).keys = m.keys := by
  unfold keys
  rw [entries_map, List.map_map]
  rfl

@[simp] theorem size_map (f : α → β) (m : OrderedMap α) : (m.map f).size = m.size := List.length_map _

@[simp] theorem isEmpty_map (f : α → β) (m : OrderedMap α) : (m.map f).isEmpty = m.isEmpty :=
  List.isEmpty_map

@[simp] theorem find?_map (f : α → β) (m : OrderedMap α) (key : String) :
    (m.map f).find? key = (m.find? key).map f :=
  lookup_map f key m.entries

@[simp] theorem contains_map (f : α → β) (m : OrderedMap α) (key : String) :
    (m.map f).contains key = m.contains key := by
  unfold contains
  rw [find?_map, Option.isSome_map]

theorem insert_map (f : α → β) (m : OrderedMap α) (key : String) (value : α) :
    (m.map f).insert key (f value) = (m.insert key value).map f := by
  unfold insert map
  congr 1
  exact setEntry_map f key value m.entries

theorem foldl_map (f : α → β) (es : List (String × α)) (m : OrderedMap α) :
    (es.map fun e => (e.1, f e.2)).foldl (fun m e => m.insert e.1 e.2) (m.map f)
      = (es.foldl (fun m e => m.insert e.1 e.2) m).map f := by
  induction es generalizing m with
  | nil => rfl
  | cons e es ih =>
    rw [List.map_cons, List.foldl_cons, List.foldl_cons, insert_map]
    exact ih _

theorem ofList_map (f : α → β) (es : List (String × α)) :
    ofList (es.map fun e => (e.1, f e.2)) = (ofList es).map f :=
  foldl_map f es empty

theorem mem_entries_foldl {es : List (String × α)} {m : OrderedMap α} {e : String × α}
    (h : e ∈ (es.foldl (fun m e => m.insert e.1 e.2) m).entries) : e ∈ m.entries ∨ e ∈ es := by
  induction es generalizing m with
  | nil => exact .inl h
  | cons d es ih =>
    rcases ih h with h | h
    · rcases mem_setEntry h with h | rfl
      · exact .inl h
      · exact .inr List.mem_cons_self
    · exact .inr (List.mem_cons_of_mem d h)

theorem mem_entries_ofList {es : List (String × α)} {e : String × α} (h : e ∈ (ofList es).entries) :
    e ∈ es :=
  (mem_entries_foldl h).resolve_left List.not_mem_nil

end TableAlgebra.OrderedMap
