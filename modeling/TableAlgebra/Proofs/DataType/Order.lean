import Mathlib.Order.Bounds.Basic
import TableAlgebra.DataType

/-!
# The order of types

`a ≤ b` says that values of type `a` may stand where `b` is wanted: an integer where a number is wanted,
and a value of a base type where a domain over it, or over a wider one, is wanted.  Nothing lies above a
domain.  The types below a given one form a chain, so two types with a common upper bound are comparable,
and the type in which they meet is the larger of the two.

The test behind `join` looks at kinds, and enumerations are of one kind whatever their labels.  `Clashes`
are the pairs of enumerations where kinds and order part.

* `covers_iff`, `join_eq_some_iff`    the tests in terms of the order, off clashes;
* `DataType.join_isLeast`             the type in which two types meet is their least upper bound;
* `DataType.not_join_isLeast`         enumerations with different labels meet without an upper bound;
* `DataType.exists_isGreatest`        finitely many types with a common upper bound have a greatest.
-/

namespace TableAlgebra

/-! ## base types -/

namespace BaseType

/-- integers are numbers; other base types are on their own -/
instance : PartialOrder BaseType where
  le a b := a = b ∨ a = .integer ∧ b = .number
  le_refl a := .inl rfl
  le_trans a b c hab hbc := by
    rcases hab with rfl | ⟨rfl, rfl⟩
    · exact hbc
    · rcases hbc with rfl | ⟨h, -⟩
      · exact .inr ⟨rfl, rfl⟩
      · exact nomatch h
  le_antisymm a b hab hba := by
    rcases hab with rfl | ⟨rfl, rfl⟩
    · rfl
    · rcases hba with h | ⟨h, -⟩ <;> exact nomatch h

instance : DecidableLE BaseType := fun a b =>
  inferInstanceAs (Decidable (a = b ∨ a = .integer ∧ b = .number))

theorem le_iff {a b : BaseType} : a ≤ b ↔ a = b ∨ a = .integer ∧ b = .number := Iff.rfl

/-- two enumerations with different labels: of one kind, but neither below the other -/
def Clashes (a b : BaseType) : Prop := ∃ ls ms, a = .enum ls ∧ b = .enum ms ∧ ls ≠ ms

theorem Clashes.symm {a b : BaseType} (h : a.Clashes b) : b.Clashes a := by
  obtain ⟨ls, ms, ha, hb, hne⟩ := h
  exact ⟨ms, ls, hb, ha, hne.symm⟩

theorem covers_iff {a b : BaseType} : a.covers b = true ↔ b ≤ a ∨ a.Clashes b := by
  rw [le_iff]
  cases a <;> cases b <;> simp [covers, kind, Clashes]
  exact (em _).imp_left Eq.symm

theorem comparable {a b c : BaseType} (ha : a ≤ c) (hb : b ≤ c) : a ≤ b ∨ b ≤ a := by
  rcases ha with rfl | ⟨rfl, rfl⟩
  · exact .inr hb
  · rcases hb with rfl | ⟨rfl, -⟩
    · exact .inl (.inr ⟨rfl, rfl⟩)
    · exact .inl le_rfl

end BaseType

/-! ## types -/

namespace DataType

/-- the order of base types, continued to domains: above their base and what lies below it -/
def Flows : DataType → DataType → Prop
  | base a, base b => a ≤ b
  | base a, domain d => a ≤ d.base
  | domain d, domain e => d = e
  | domain _, base _ => False

instance : PartialOrder DataType where
  le := Flows
  le_refl t := by
    cases t with
    | base a => exact le_refl a
    | domain d => exact (rfl : d = d)
  le_trans t u v htu huv := by
    cases t with
    | base a =>
      cases u with
      | base b => cases v with
        | base c => exact le_trans (show a ≤ b from htu) huv
        | domain e => exact le_trans (show a ≤ b from htu) huv
      | domain d => cases v with
        | base c => exact (show False from huv).elim
        | domain e => exact (show d = e from huv) ▸ htu
    | domain d => cases u with
      | base b => exact (show False from htu).elim
      | domain e => exact (show d = e from htu) ▸ huv
  le_antisymm t u htu hut := by
    cases t with
    | base a => cases u with
      | base b => exact congrArg base (le_antisymm (show a ≤ b from htu) hut)
      | domain d => exact (show False from hut).elim
    | domain d => cases u with
      | base b => exact (show False from htu).elim
      | domain e => exact congrArg domain htu

theorem base_le_base {a b : BaseType} : base a ≤ base b ↔ a ≤ b := Iff.rfl

theorem base_le_domain {a : BaseType} {d : Domain} : base a ≤ domain d ↔ a ≤ d.base := Iff.rfl

theorem domain_le {d : Domain} {t : DataType} : domain d ≤ t ↔ t = domain d := by
  cases t with
  | base b => exact ⟨fun h => (show False from h).elim, fun h => nomatch h⟩
  | domain e =>
    have h : domain d ≤ domain e ↔ d = e := Iff.rfl
    rw [h, domain.injEq, eq_comm]

theorem comparable {t u v : DataType} (ht : t ≤ v) (hu : u ≤ v) : t ≤ u ∨ u ≤ t := by
  cases t with
  | domain d => exact .inr (domain_le.mp ht ▸ hu)
  | base a => cases u with
    | domain e => exact .inl (domain_le.mp hu ▸ ht)
    | base b => cases v with
      | base c => exact BaseType.comparable ht hu
      | domain d => exact BaseType.comparable ht hu

/-- finitely many types with a common upper bound have a greatest among them -/
theorem exists_isGreatest {ts : List DataType} {v : DataType} (hne : ts ≠ []) (h : ∀ t ∈ ts, t ≤ v) :
    ∃ m, IsGreatest {t | t ∈ ts} m := by
  induction ts with
  | nil => exact absurd rfl hne
  | cons t ts ih =>
    obtain ⟨ht, hts⟩ := List.forall_mem_cons.mp h
    by_cases hnil : ts = []
    · subst hnil
      refine ⟨t, List.mem_singleton_self t, fun u hu => ?_⟩
      exact (List.mem_singleton.mp hu).le
    · obtain ⟨m, hm, hmax⟩ := ih hnil hts
      rcases comparable ht (hts m hm) with hle | hle
      · refine ⟨m, List.mem_cons_of_mem t hm, fun u hu => ?_⟩
        rcases List.mem_cons.mp hu with rfl | hu
        · exact hle
        · exact hmax hu
      · refine ⟨t, List.mem_cons_self, fun u hu => ?_⟩
        rcases List.mem_cons.mp hu with rfl | hu
        · exact le_rfl
        · exact (hmax hu).trans hle

/-! ## where two types meet -/

/-- a base type and what lies under another type are enumerations with different labels -/
def Clashes : DataType → DataType → Prop
  | base a, base b => a.Clashes b
  | base a, domain d => a.Clashes d.base
  | domain d, base b => d.base.Clashes b
  | domain _, domain _ => False

theorem Clashes.symm {t u : DataType} (h : t.Clashes u) : u.Clashes t := by
  cases t with
  | base a => cases u <;> exact BaseType.Clashes.symm h
  | domain d => cases u with
    | base b => exact BaseType.Clashes.symm h
    | domain e => exact h

theorem join_base_base (a b : BaseType) : (base a).join (base b) = (a.join b).map base := rfl

theorem join_base_domain (a : BaseType) (d : Domain) :
    (base a).join (domain d) = if d.base.covers a then some (domain d) else none := rfl

theorem join_domain_base (d : Domain) (b : BaseType) :
    (domain d).join (base b) = if d.base.covers b then some (domain d) else none := rfl

theorem join_domain_domain (d e : Domain) :
    (domain d).join (domain e) = if d = e then some (domain d) else none := rfl

/-- off clashes two types meet if they are comparable, and then in the larger one -/
theorem join_eq_some_iff {t u v : DataType} (h : ¬ t.Clashes u) :
    t.join u = some v ↔ u ≤ t ∧ t = v ∨ t ≤ u ∧ u = v := by
  cases t with
  | base a => cases u with
    | base b =>
      have hcovers : a.join b = if b ≤ a then some a else if a ≤ b then some b else none := by
        have hab : a.covers b = true ↔ b ≤ a := BaseType.covers_iff.trans (or_iff_left h)
        have hba : b.covers a = true ↔ a ≤ b :=
          BaseType.covers_iff.trans (or_iff_left fun hc => h hc.symm)
        unfold BaseType.join
        simp only [hab, hba]
      rw [join_base_base, hcovers, base_le_base, base_le_base]
      by_cases hle : b ≤ a
      · have hother : a ≤ b ∧ base b = v → base a = v := fun hv => le_antisymm hle hv.1 ▸ hv.2
        simpa [hle] using hother
      · by_cases hge : a ≤ b <;> simp [hle, hge]
    | domain d =>
      have hda : d.base.covers a = true ↔ a ≤ d.base :=
        BaseType.covers_iff.trans (or_iff_left fun hc => h hc.symm)
      simp [join_base_domain, hda, base_le_domain, domain_le]
  | domain d => cases u with
    | base b =>
      have hdb : d.base.covers b = true ↔ b ≤ d.base := BaseType.covers_iff.trans (or_iff_left h)
      simp [join_domain_base, hdb, base_le_domain, domain_le]
    | domain e =>
      have hsame : ∀ d e : Domain, domain d ≤ domain e ↔ d = e := fun _ _ => Iff.rfl
      rw [join_domain_domain, Option.ite_none_right_eq_some, Option.some.injEq, hsame, hsame]
      constructor
      · rintro ⟨rfl, hv⟩
        exact .inl ⟨rfl, hv⟩
      · rintro (⟨rfl, hv⟩ | ⟨rfl, hv⟩) <;> exact ⟨rfl, hv⟩

theorem eq_or_eq_of_join {t u v : DataType} (h : t.join u = some v) : t = v ∨ u = v := by
  cases t with
  | base a => cases u with
    | base b =>
      rw [join_base_base, Option.map_eq_some_iff] at h
      obtain ⟨c, hc, rfl⟩ := h
      unfold BaseType.join at hc
      split at hc
      · exact .inl (congrArg base (Option.some.inj hc))
      · rw [Option.ite_none_right_eq_some] at hc
        exact .inr (congrArg base (Option.some.inj hc.2))
    | domain d =>
      rw [join_base_domain, Option.ite_none_right_eq_some] at h
      exact .inr (Option.some.inj h.2)
  | domain d => cases u with
    | base b =>
      rw [join_domain_base, Option.ite_none_right_eq_some] at h
      exact .inl (Option.some.inj h.2)
    | domain e =>
      rw [join_domain_domain, Option.ite_none_right_eq_some] at h
      exact .inl (Option.some.inj h.2)

/-- what two types meet in is the same from both sides, unless both are plain enumerations -/
theorem join_comm {t u : DataType} (h : ∀ ls ms, t = .base (.enum ls) → u = .base (.enum ms) → ls = ms) :
    t.join u = u.join t := by
  cases t with
  | base a => cases u with
    | base b =>
      by_cases hclash : a.Clashes b
      · obtain ⟨ls, ms, rfl, rfl, hne⟩ := hclash
        exact absurd (h ls ms rfl rfl) hne
      · ext v
        have hab : ¬ (base a).Clashes (base b) := hclash
        have hba : ¬ (base b).Clashes (base a) := fun hc => hclash hc.symm
        rw [join_eq_some_iff hab, join_eq_some_iff hba, or_comm]
    | domain d => rfl
  | domain d => cases u with
    | base b => rfl
    | domain e =>
      rw [join_domain_domain, join_domain_domain]
      by_cases hde : d = e
      · rw [if_pos hde, if_pos hde.symm, hde]
      · rw [if_neg hde, if_neg (Ne.symm hde)]

/-- off clashes the type in which two types meet is their least upper bound -/
theorem join_eq_some_iff_isLUB {t u v : DataType} (h : ¬ t.Clashes u) :
    t.join u = some v ↔ IsLUB {t, u} v := by
  rw [join_eq_some_iff h]
  constructor
  · rintro (⟨hle, rfl⟩ | ⟨hle, rfl⟩)
    · have hgreatest : IsGreatest {t, u} t := ⟨by simp, by simp [hle]⟩
      exact hgreatest.isLUB
    · have hgreatest : IsGreatest {t, u} u := ⟨by simp, by simp [hle]⟩
      exact hgreatest.isLUB
  · intro hv
    have ht : t ≤ v := hv.1 (by simp)
    have hu : u ≤ v := hv.1 (by simp)
    rcases comparable ht hu with hle | hle
    · exact .inr ⟨hle, le_antisymm hu (hv.2 (by simp [hle]))⟩
    · exact .inl ⟨hle, le_antisymm ht (hv.2 (by simp [hle]))⟩

/-- **The type in which two types meet is their least upper bound**, in the order that `join` itself
gives, unless both are enumerations and differ in their labels.  If no enumeration meets one with other
labels, not even in a domain, it is so in the order of what flows into what. -/
theorem join_isLeast {t u : DataType}
    (h : ∀ ls ms, t = .base (.enum ls) → u = .base (.enum ms) → ls = ms) :
    t.join u = u.join t ∧
      (∀ v, t.join u = some v → t.join v = some v ∧ u.join v = some v ∧
        ∀ w, t.join w = some w → u.join w = some w → v.join w = some w) ∧
      (¬ t.Clashes u → ∀ v, t.join u = some v ↔ IsLUB {t, u} v) := by
  have hcomm := join_comm h
  refine ⟨hcomm, fun v hv => ?_, fun hclash v => join_eq_some_iff_isLUB hclash⟩
  rcases eq_or_eq_of_join hv with rfl | rfl
  · exact ⟨join_self t, hcomm ▸ hv, fun w htw _ => htw⟩
  · exact ⟨hv, join_self u, fun w _ huw => huw⟩

def price : Domain := ⟨⟨0⟩, "price", .number, {}⟩

/-- the hypotheses of `join_isLeast` can be met: an integer flows into a domain over numbers -/
theorem join_isLeast_price :
    ((∀ ls ms, integer = .base (.enum ls) → domain price = .base (.enum ms) → ls = ms) ∧
        ¬ integer.Clashes (.domain price)) ∧
      integer.join (.domain price) = (domain price).join .integer ∧
      IsLUB {integer, domain price} (domain price) := by
  have h : ∀ ls ms, integer = .base (.enum ls) → domain price = .base (.enum ms) → ls = ms :=
    fun _ _ h => nomatch h
  have hclash : ¬ integer.Clashes (.domain price) := fun ⟨_, _, h, _⟩ => nomatch h
  obtain ⟨hcomm, -, hlub⟩ := join_isLeast h
  exact ⟨⟨h, hclash⟩, hcomm, (hlub hclash _).mp rfl⟩

/-- enumerations meet in the left one, whatever their labels -/
theorem join_enumerations (ls ms : List String) :
    (base (.enum ls)).join (base (.enum ms)) = some (base (.enum ls)) := rfl

/-- **Enumerations with different labels have no least upper bound, and meet all the same**: in different
types from the two sides, and the type in which they meet does not take in the right one. -/
theorem not_join_isLeast :
    (¬ ∀ t u : DataType, t.join u = u.join t) ∧
      ¬ ∀ t u v : DataType, t.join u = some v → u.join v = some v := by
  have hne : base (.enum ["open"]) ≠ base (.enum ["paid"]) := by decide
  constructor
  · intro h
    have hsame := h (base (.enum ["open"])) (base (.enum ["paid"]))
    rw [join_enumerations, join_enumerations] at hsame
    exact hne (Option.some.inj hsame)
  · intro h
    have hright := h _ _ _ (join_enumerations ["open"] ["paid"])
    rw [join_enumerations] at hright
    exact hne (Option.some.inj hright).symm

end DataType

end TableAlgebra
