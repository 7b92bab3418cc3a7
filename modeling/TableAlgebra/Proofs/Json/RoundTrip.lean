import TableAlgebra.Proofs.Json.Compact
import TableAlgebra.Proofs.Json.Double
import TableAlgebra.Proofs.OrderedMap
import TableAlgebra.Statement.Basic

/-!
# Statements and column options come back from JSON

A value is written without a mark of its kind, and comes back as what it was: a truth value by its word, an integer
by its digits alone, a double by a point or an exponent among them, a string by its quotes.  Whether a double comes
back to the last bit is a condition on the double (`Binary64.ReadsBack`); that two statements of one text are the
same does not depend on it.

* `Written.fields?_ofPairs`         the fields of a record are those that were written;
* `Value.ofWritten?_written`        when a value comes back;
* `Value.written_inj`               values that are written alike are the same;
* `Json.roundTrip`                  when statements and column options come back, and which statements have one text.
-/

namespace TableAlgebra

/-! ## records -/

namespace Json

theorem writtenElements_eq_map (js : List Json) : writtenElements js = js.map written := by
  induction js with
  | nil => rfl
  | cons j js ih => rw [writtenElements, List.map_cons, ih]

theorem writtenMembers_eq_map (pairs : List (String × Json)) :
    writtenMembers (pairs.map fun p => ⟨p.1, p.2⟩)
      = pairs.map fun p => ⟨p.1.toList.map Char.toNat, p.2.written⟩ := by
  induction pairs with
  | nil => rfl
  | cons p pairs ih => rw [List.map_cons, writtenMembers, List.map_cons, ih, writtenMember]

theorem written_ofPairs (pairs : List (String × Json)) :
    (ofPairs pairs).written = .object (pairs.map fun p => ⟨p.1.toList.map Char.toNat, p.2.written⟩) :=
  congrArg Written.object (writtenMembers_eq_map pairs)

end Json

namespace Written

theorem namedMembers?_written (pairs : List (String × Json)) :
    namedMembers? (pairs.map fun p => ⟨p.1.toList.map Char.toNat, p.2.written⟩)
      = some (pairs.map fun p => (p.1, p.2.written)) := by
  unfold namedMembers?
  induction pairs with
  | nil => rfl
  | cons p pairs ih =>
    rw [List.map_cons, List.mapM_cons, ih, WrittenMember.name?, decodeUnits?_map_toNat, Option.map_some,
      String.ofList_toList]
    rfl

theorem atMostOne?_partsNamed {members : List (String × Written)} (h : (members.map Prod.fst).Nodup)
    (field : String) : atMostOne? (partsNamed field members) = some (members.lookup field) := by
  unfold partsNamed
  induction members with
  | nil => rfl
  | cons m members ih =>
    obtain ⟨name, part⟩ := m
    rw [List.map_cons, List.nodup_cons] at h
    obtain ⟨hname, hrest⟩ := h
    rw [List.lookup_cons, List.filter_cons]
    by_cases heq : name = field
    · subst heq
      have hnone : members.filter (fun m => m.1 == name) = [] := by
        rw [List.filter_eq_nil_iff]
        intro m hm hfield
        exact hname (List.mem_map.mpr ⟨m, hm, by simpa using hfield⟩)
      simp [hnone, atMostOne?]
    · have hne : (field == name) = false := by simpa using Ne.symm heq
      rw [if_neg (by simpa using heq), ih hrest, hne]

theorem fields?_ofPairs {pairs : List (String × Json)} (h : (pairs.map Prod.fst).Nodup) (names : List String) :
    (Json.ofPairs pairs).written.fields? names
      = some (names.map fun field => (pairs.lookup field).map Json.written) := by
  have hnodup : ((pairs.map fun p => (p.1, p.2.written)).map Prod.fst).Nodup := by
    rwa [List.map_map]
  have hfield (field : String) : atMostOne? (partsNamed field (pairs.map fun p => (p.1, p.2.written)))
      = some ((pairs.lookup field).map Json.written) := by
    rw [atMostOne?_partsNamed hnodup, OrderedMap.lookup_map]
  rw [Json.written_ofPairs]
  unfold fields?
  simp only [namedMembers?_written, Option.bind_eq_bind, Option.bind_some, hfield]
  exact List.mapM_pure

end Written

/-! ## values -/

namespace Value

def IsFinite : Value → Prop
  | float x => x.isFinite = true
  | _ => True

/-- a double is read back, if the value is one -/
def ReadsBack : Value → Prop
  | float x => x.ReadsBack
  | _ => True

instance : DecidablePred IsFinite
  | float x => inferInstanceAs (Decidable (x.isFinite = true))
  | bool _ | int _ | string _ => isTrue trivial

instance : DecidablePred ReadsBack
  | float x => inferInstanceAs (Decidable x.ReadsBack)
  | bool _ | int _ | string _ => isTrue trivial

variable {v w : Value}

theorem written_float {x : Binary64} (h : (float x).IsFinite) : (float x).toJson.written = .number x.numeral :=
  if_pos h

/-- a value that is neither an infinity nor NaN comes back, if a double is read back -/
theorem ofWritten?_written (h : v.IsFinite) : ofWritten? v.toJson.written = some v ↔ v.ReadsBack := by
  cases v with
  | bool b => exact iff_of_true rfl trivial
  | int i =>
    refine iff_of_true ?_ trivial
    have hlow := i.le_toInt
    have hhigh := i.toInt_lt
    have hnumber : (intNumeral i.toInt).toNumber? = some (.integer i.toInt) := by
      unfold Numeral.toNumber?
      rw [toInt?_intNumeral_toInt]
    show (intNumeral i.toInt).toNumber?.map ofNumber = _
    rw [hnumber, Option.map_some, ofNumber, if_pos ⟨by omega, by omega⟩, Int64.ofInt_toInt]
  | float x =>
    have hnumber : x.numeral.toNumber? = x.numeral.toFloat?.map .float := by
      unfold Numeral.toNumber? Binary64.numeral
      rw [toInt?_decimalNumeral]
    rw [written_float h]
    show x.numeral.toNumber?.map ofNumber = _ ↔ _
    show _ ↔ x.ReadsBack
    rw [hnumber, x.readsBack_iff]
    simp [ofNumber]
  | string s =>
    refine iff_of_true ?_ trivial
    show (decodeUnits? (s.toList.map Char.toNat)).map _ = _
    rw [decodeUnits?_map_toNat, Option.map_some, String.ofList_toList]

theorem written_ne_null (h : v.IsFinite) : v.toJson.written ≠ .null := by
  cases v with
  | bool _ => exact Written.noConfusion
  | int _ => exact Written.noConfusion
  | float x => exact written_float h ▸ Written.noConfusion
  | string _ => exact Written.noConfusion

/-- the numeral of a double is that of no integer -/
theorem intNumeral_ne_numeral (i : Int64) (x : Binary64) : intNumeral i.toInt ≠ x.numeral := by
  intro h
  have hint := toInt?_intNumeral_toInt i
  rw [h, Binary64.numeral, toInt?_decimalNumeral] at hint
  cases hint

theorem intNumeral_inj {i j : Int64} (h : intNumeral i.toInt = intNumeral j.toInt) : i = j := by
  have hi := toInt?_intNumeral_toInt i
  rw [h, toInt?_intNumeral_toInt, Option.some.injEq] at hi
  exact (Int64.toInt_inj.mp hi).symm

/-- values that are written alike are the same, if none of them is an infinity or NaN -/
theorem written_inj (hv : v.IsFinite) (hw : w.IsFinite) (h : v.toJson.written = w.toJson.written) : v = w := by
  cases v with
  | bool b =>
    cases w with
    | bool _ => exact congrArg bool (Written.bool.inj h)
    | int _ => exact nomatch h
    | float _ => exact nomatch written_float hw ▸ h
    | string _ => exact nomatch h
  | int i =>
    cases w with
    | bool _ => exact nomatch h
    | int j => exact congrArg int (intNumeral_inj (Written.number.inj h))
    | float y =>
      rw [written_float hw] at h
      exact absurd (Written.number.inj h) (intNumeral_ne_numeral i y)
    | string _ => exact nomatch h
  | float x =>
    rw [written_float hv] at h
    cases w with
    | bool _ => exact nomatch h
    | int j => exact absurd (Written.number.inj h).symm (intNumeral_ne_numeral j x)
    | float y =>
      rw [written_float hw] at h
      exact congrArg float (Binary64.numeral_inj (Written.number.inj h))
    | string _ => exact nomatch h
  | string s =>
    cases w with
    | bool _ => exact nomatch h
    | int _ => exact nomatch h
    | float _ => exact nomatch written_float hw ▸ h
    | string t =>
      have hunits : s.toList.map Char.toNat = t.toList.map Char.toNat := Written.string.inj h
      have hchars := decodeUnits?_map_toNat t.toList
      rw [← hunits, decodeUnits?_map_toNat, Option.some.injEq, String.toList_inj] at hchars
      exact congrArg string hchars

end Value

/-! ## statements -/

theorem mapM_eq_some_iff {α β : Type} {read : β → Option α} {write : α → β} {as : List α} :
    (as.map write).mapM read = some as ↔ ∀ a ∈ as, read (write a) = some a := by
  induction as with
  | nil => exact iff_of_true rfl nofun
  | cons a as ih =>
    rw [List.map_cons, List.mapM_cons, List.forall_mem_cons, ← ih]
    cases read (write a) <;> cases (as.map write).mapM read <;> simp

theorem eq_of_map_eq {α β : Type} {write : α → β} {as bs : List α}
    (h : ∀ a ∈ as, ∀ b ∈ bs, write a = write b → a = b) (heq : as.map write = bs.map write) : as = bs := by
  have hlength : as.length = bs.length := by simpa using congrArg List.length heq
  refine List.ext_getElem hlength fun i hi hi' => h _ (List.getElem_mem hi) _ (List.getElem_mem hi') ?_
  have hith : (as.map write)[i]? = (bs.map write)[i]? := congrArg (·[i]?) heq
  simpa [hi, hi'] using hith

namespace Statement

variable {s t : Statement}

theorem nodup_pairs (s : Statement) : (([("sql", Json.string s.sql)] ++
    if s.params.isEmpty then [] else [("params", Json.array (s.params.map Value.toJson))]).map Prod.fst).Nodup := by
  split
  · show ["sql"].Nodup
    decide
  · show ["sql", "params"].Nodup
    decide

/-- the text of a statement, and its values unless there are none, are what is read -/
theorem fields?_written (s : Statement) : s.toJson.written.fields? ["sql", "params"]
    = some [some (.string (s.sql.toList.map Char.toNat)),
        if s.params.isEmpty then none else some (.array (s.params.map fun v => v.toJson.written))] := by
  refine (Written.fields?_ofPairs s.nodup_pairs _).trans ?_
  by_cases hempty : s.params.isEmpty = true
  · rw [if_pos hempty, if_pos hempty]
    rfl
  · rw [if_neg hempty, if_neg hempty]
    show some [_, some (Json.array (s.params.map Value.toJson)).written] = _
    rw [Json.written, Json.writtenElements_eq_map, List.map_map]
    rfl

theorem parse?_jsonText (h : ∀ v ∈ s.params, v.IsFinite) :
    parse? s.jsonText = some s ↔ ∀ v ∈ s.params, v.ReadsBack := by
  have hvalues : (∀ v ∈ s.params, v.ReadsBack) ↔
      (s.params.map fun v => v.toJson.written).mapM Value.ofWritten? = some s.params := by
    rw [mapM_eq_some_iff]
    exact forall₂_congr fun v hv => (Value.ofWritten?_written (h v hv)).symm
  rw [hvalues]
  unfold parse? jsonText
  rw [Json.parse?_compact, Option.bind_some]
  unfold ofWritten?
  rw [fields?_written]
  obtain ⟨sql, params⟩ := s
  cases params with
  | nil => simp [Written.fieldOr?, Written.string?, decodeUnits?_map_toNat]
  | cons v vs =>
    simp [Written.fieldOr?, Written.string?, decodeUnits?_map_toNat, readParams?, Written.elements?,
      Option.bind_eq_some_iff, -List.map_cons, -List.mapM_cons, -List.mapM_map]

/-- statements of one JSON text are the same, if none of their values is an infinity or NaN -/
theorem jsonText_inj (hs : ∀ v ∈ s.params, v.IsFinite) (ht : ∀ v ∈ t.params, v.IsFinite)
    (h : s.jsonText = t.jsonText) : s = t := by
  have hwritten : s.toJson.written = t.toJson.written := by
    have hparse := congrArg Written.parse? h
    unfold jsonText at hparse
    rwa [Json.parse?_compact, Json.parse?_compact, Option.some.injEq] at hparse
  have hfields := congrArg (Written.fields? ["sql", "params"]) hwritten
  rw [fields?_written, fields?_written] at hfields
  simp only [Option.some.injEq, List.cons.injEq, Written.string.injEq, and_true] at hfields
  obtain ⟨hsql, hparams⟩ := hfields
  have hsql' : s.sql = t.sql := by
    have hchars := decodeUnits?_map_toNat t.sql.toList
    rwa [← hsql, decodeUnits?_map_toNat, Option.some.injEq, String.toList_inj] at hchars
  obtain ⟨sql, params⟩ := s
  obtain ⟨sql', params'⟩ := t
  have hparams' : params.map (fun v => v.toJson.written) = params'.map fun v => v.toJson.written := by
    cases params with
    | nil =>
      cases params' with
      | nil => rfl
      | cons w ws => exact nomatch hparams
    | cons v vs =>
      cases params' with
      | nil => exact nomatch hparams
      | cons w ws => exact Written.array.inj (Option.some.inj hparams)
  have hvalues := eq_of_map_eq (fun v hv w hw => Value.written_inj (hs v hv) (ht w hw)) hparams'
  exact congrArg₂ Statement.mk hsql' hvalues

end Statement

/-! ## column options -/

namespace Qualifiers

variable {q : Qualifiers}

theorem nodup_pairs (q : Qualifiers) : (([("unique", Json.bool q.unique), ("auto_increment", .bool q.autoIncrement),
    ("primary_key", .bool q.primaryKey), ("not_null", .bool q.notNull)] ++
    match q.default with
    | some v => [("default", v.toJson)]
    | none => []).map Prod.fst).Nodup := by
  cases q.default with
  | none =>
    show ["unique", "auto_increment", "primary_key", "not_null"].Nodup
    decide
  | some v =>
    show ["unique", "auto_increment", "primary_key", "not_null", "default"].Nodup
    decide

/-- the four flags, and the default if there is one, are what is read -/
theorem fields?_written (q : Qualifiers) : q.toJson.written.fields? fieldNames
    = some [some (.bool q.unique), some (.bool q.autoIncrement), some (.bool q.primaryKey), some (.bool q.notNull),
        q.default.map fun v => v.toJson.written] := by
  refine (Written.fields?_ofPairs q.nodup_pairs fieldNames).trans ?_
  cases q.default <;> rfl

theorem parse?_compact (h : ∀ v ∈ q.default, v.IsFinite) :
    parse? q.toJson.compact = some q ↔ ∀ v ∈ q.default, v.ReadsBack := by
  unfold parse?
  rw [Json.parse?_compact, Option.bind_some]
  unfold ofWritten?
  rw [fields?_written]
  obtain ⟨unique, autoIncrement, primaryKey, notNull, default⟩ := q
  cases default with
  | none => exact iff_of_true rfl nofun
  | some v =>
    have hread : readDefault? v.toJson.written = (Value.ofWritten? v.toJson.written).map some := by
      rw [readDefault?]
      exact Value.written_ne_null (h v rfl)
    have hdefault : (∀ w ∈ some v, w.ReadsBack) ↔ v.ReadsBack := by simp
    rw [hdefault, ← Value.ofWritten?_written (h v rfl)]
    simp [Written.fieldOr?, Written.bool?, hread, Option.bind_eq_some_iff]

end Qualifiers

namespace Json

/-- Statements and column options that hold no infinity and no NaN come back from their JSON texts as they were, if
the doubles they hold are read back.  Two such statements have one JSON text, and so one digest is taken, exactly
when they have the same text and the same values. -/
theorem roundTrip :
    (∀ s : Statement, (∀ v ∈ s.params, v.IsFinite) →
      (Statement.parse? s.jsonText = some s ↔ ∀ v ∈ s.params, v.ReadsBack)) ∧
    (∀ q : Qualifiers, (∀ v ∈ q.default, v.IsFinite) →
      (Qualifiers.parse? q.toJson.compact = some q ↔ ∀ v, q.default = some v → v.ReadsBack)) ∧
    (∀ s t : Statement, (∀ v ∈ s.params, v.IsFinite) → (∀ v ∈ t.params, v.IsFinite) →
      (s.jsonText = t.jsonText ↔ s.sql = t.sql ∧ s.params = t.params)) ∧
    ∀ s : Statement, s.fingerprint = Sha256.hexDigest s.jsonText := by
  refine ⟨fun s => Statement.parse?_jsonText, fun q => Qualifiers.parse?_compact, fun s t hs ht => ⟨fun h => ?_, ?_⟩,
    fun s => rfl⟩
  · have hst := Statement.jsonText_inj hs ht h
    exact ⟨congrArg Statement.sql hst, congrArg Statement.params hst⟩
  · rintro ⟨hsql, hparams⟩
    obtain ⟨sql, params⟩ := s
    obtain ⟨sql', params'⟩ := t
    exact congrArg Statement.jsonText (congrArg₂ Statement.mk hsql hparams)

/-- a statement with a value of each kind, the double a negative zero -/
def mixedStatement : Statement :=
  ⟨"insert into t (a, b, c, d) values (?, ?, ?, ?)",
    [.bool true, .int (-3), .float ⟨0x8000000000000000⟩, .string "say \"so\"\n"]⟩

/-- options of a column that is never null, one and a half by default -/
def halvesQualifiers : Qualifiers := { notNull := true, default := some (.float ⟨0x3FF8000000000000⟩) }

theorem roundTrip_mixedStatement :
    Statement.parse? mixedStatement.jsonText = some mixedStatement ∧
      Qualifiers.parse? halvesQualifiers.toJson.compact = some halvesQualifiers ∧
      mixedStatement.jsonText ≠ (⟨mixedStatement.sql, []⟩ : Statement).jsonText := by
  obtain ⟨hstatement, hqualifiers, hinj, -⟩ := roundTrip
  refine ⟨(hstatement mixedStatement (by decide)).mpr (by decide),
    (hqualifiers halvesQualifiers (by decide)).mpr (by decide), fun h => ?_⟩
  have hparams := ((hinj _ _ (by decide) (by decide)).mp h).2
  exact absurd hparams (by decide)

end Json

end TableAlgebra
