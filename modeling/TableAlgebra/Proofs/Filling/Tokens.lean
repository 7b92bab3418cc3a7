import TableAlgebra.Proofs.Filling.Basic
import TableAlgebra.Proofs.Sql.Slots

/-!
# Filling and tokens

Filling an expression fills the places among its slots and changes no other token.  Names are not touched
and numbers neither, so what can be read before can be read afterwards.

* `slotTokens_exprSlots_fill`, `slotTokens_selectSlots_fill`   the tokens of a filled expression and of the
  query for a filled relation;
* `Expr.DeepLegible.fill`      a filled expression can be read if the expression can.
-/

namespace TableAlgebra

variable {σ : String → String}

/-! ## slots -/

theorem Slot.fill_numeralSlots (text : String) :
    (numeralSlots text).map (Slot.fill σ) = slotTokens (numeralSlots text) := by
  unfold numeralSlots
  split <;> rfl

theorem Literal.slotTokens_slots_fill (l : Literal) :
    slotTokens (l.fill σ).slots = l.slots.map (Slot.fill σ) := by
  cases l with
  | integer i => exact (Slot.fill_numeralSlots _).symm
  | number x => exact (Slot.fill_numeralSlots _).symm
  | boolean b => rfl
  | string s => rfl
  | label v => rfl

theorem Attribute.slotTokens_slots_fill (a : Attribute) (qualified : Bool) :
    slotTokens ((a.fill σ).slots qualified) = (a.slots qualified).map (Slot.fill σ) := by
  unfold slots
  rw [table?_fill, name_fill]
  split
  · cases qualified <;> rfl
  · rfl

theorem BinaryOp.fill_slot (op : BinaryOp) : op.slot.fill id = op.slot.fill σ := by
  cases op <;> rfl

theorem slotTokens_aliasSlots_fill (rename : Bool) (key : String) (e : Expr) :
    slotTokens (aliasSlots rename key (e.fill σ)) = (aliasSlots rename key e).map (Slot.fill σ) := by
  have hbears : (e.fill σ).bears key = e.bears key := by
    unfold Expr.bears
    rw [Expr.attribute?_fill]
    cases e.attribute? <;> rfl
  unfold aliasSlots
  rw [hbears]
  split <;> rfl

theorem slotTokens_intercalate_fill {separator : Slot} (hsep : separator.fill id = separator.fill σ)
    {items items' : List (List Slot)} (h : items'.map slotTokens = items.map (List.map (Slot.fill σ))) :
    slotTokens ([separator].intercalate items') = ([separator].intercalate items).map (Slot.fill σ) := by
  rw [slotTokens_intercalate, map_intercalate, h]
  show [separator.fill id].intercalate _ = [separator.fill σ].intercalate _
  rw [hsep]

theorem slotTokens_clauseSlots_fill {keyword : List Slot} {separator : Slot}
    (hkey : slotTokens keyword = keyword.map (Slot.fill σ))
    (hsep : separator.fill id = separator.fill σ) {items items' : List (List Slot)}
    (h : items'.map slotTokens = items.map (List.map (Slot.fill σ))) :
    slotTokens (clauseSlots keyword separator items')
      = (clauseSlots keyword separator items).map (Slot.fill σ) := by
  have hempty : items'.isEmpty = items.isEmpty := by
    rw [← List.isEmpty_map (f := slotTokens), h, List.isEmpty_map]
  unfold clauseSlots
  rw [hempty]
  split
  · rfl
  · rw [slotTokens_append, List.map_append, hkey, slotTokens_intercalate_fill hsep h]

theorem slotTokens_selectSlots_of_exprs {r : Relation}
    (hexprs : ∀ e ∈ r.exprs, ∀ qualified, slotTokens (exprSlots qualified (e.fill σ))
      = (exprSlots qualified e).map (Slot.fill σ)) (rename : Bool) :
    slotTokens (selectSlots rename (r.fill σ)) = (selectSlots rename r).map (Slot.fill σ) := by
  have hmap : ∀ es : List Expr, (∀ e ∈ es, e ∈ r.exprs) → ∀ qualified,
      (exprsSlots qualified (es.map (Expr.fill σ))).map slotTokens
        = (exprsSlots qualified es).map (List.map (Slot.fill σ)) := by
    intro es hes qualified
    simp only [exprsSlots_eq_map, List.map_map]
    exact List.map_congr_left fun e he => hexprs e (hes e he) qualified
  have hcolumns : ∀ qualified, (columnsSlots qualified rename (r.columns.map (Column.fill σ))).map
      slotTokens = (columnsSlots qualified rename r.columns).map (List.map (Slot.fill σ)) := by
    intro qualified
    simp only [columnsSlots_eq_map, List.map_map]
    refine List.map_congr_left fun c hc => ?_
    show slotTokens (exprSlots qualified (c.expr.fill σ) ++ aliasSlots rename c.key (c.expr.fill σ)) =
      (exprSlots qualified c.expr ++ aliasSlots rename c.key c.expr).map (Slot.fill σ)
    rw [slotTokens_append, List.map_append, slotTokens_aliasSlots_fill,
      hexprs c.expr (Relation.mem_exprs.mpr (.inl ⟨c, hc, rfl⟩))]
  have hsources : ((r.sources.map fun s => [Slot.word s]).map slotTokens)
      = (r.sources.map fun s => [Slot.word s]).map (List.map (Slot.fill σ)) := by
    simp only [List.map_map]
    rfl
  have hrestrictions := hmap r.restrictions fun e he => Relation.mem_exprs.mpr (.inr (.inl he))
  have hgroups := hmap r.groups fun e he => Relation.mem_exprs.mpr (.inr (.inr (.inl he)))
  have horders := hmap r.orders fun e he => Relation.mem_exprs.mpr (.inr (.inr (.inr he)))
  rw [selectSlots_eq, selectSlots_eq, Relation.fill_eq]
  simp only [slotTokens_append, slotTokens_cons, List.map_append, List.map_cons, List.append_assoc,
    List.cons_append, Slot.fill_word]
  rw [slotTokens_intercalate_fill (σ := σ) rfl (hcolumns _),
    slotTokens_intercalate_fill (σ := σ) rfl hsources,
    slotTokens_clauseSlots_fill (σ := σ) rfl rfl (hrestrictions _),
    slotTokens_clauseSlots_fill (σ := σ) rfl rfl (hgroups _),
    slotTokens_clauseSlots_fill (σ := σ) rfl rfl (horders _)]

/-- the tokens of a filling, for an expression by the parts of the tree and for a relation by its
expressions -/
theorem structural_slotTokens_fill : Structural
    (fun e => ∀ qualified, slotTokens (exprSlots qualified (e.fill σ))
      = (exprSlots qualified e).map (Slot.fill σ))
    (fun r => ∀ rename, slotTokens (selectSlots rename (r.fill σ))
      = (selectSlots rename r).map (Slot.fill σ)) where
  literal l qualified := by
    rw [Expr.fill, exprSlots, exprSlots]
    exact l.slotTokens_slots_fill
  attr a qualified := by
    rw [Expr.fill, exprSlots, exprSlots]
    exact a.slotTokens_slots_fill qualified
  binary op t l r hl hr qualified := by
    rw [Expr.fill, exprSlots, exprSlots]
    simp only [slotTokens_append, slotTokens_cons, slotTokens_nil, hl, hr, List.map_append,
      List.map_cons, List.map_nil, op.fill_slot (σ := σ), Slot.fill_symbol]
  aggregate f t e he qualified := by
    rw [Expr.fill, exprSlots, exprSlots]
    simp only [slotTokens_append, slotTokens_cons, slotTokens_nil, he, List.map_append,
      List.map_cons, List.map_nil, Slot.fill_word, Slot.fill_symbol]
  member t e r he hr qualified := by
    rw [Expr.fill, exprSlots, exprSlots]
    simp only [slotTokens_append, slotTokens_cons, slotTokens_nil, he, hr, List.map_append,
      List.map_cons, List.map_nil, Slot.fill_word, Slot.fill_symbol]
  relation r hexprs rename := slotTokens_selectSlots_of_exprs hexprs rename

theorem slotTokens_exprSlots_fill (e : Expr) (qualified : Bool) :
    slotTokens (exprSlots qualified (e.fill σ)) = (exprSlots qualified e).map (Slot.fill σ) :=
  structural_slotTokens_fill.of_expr e qualified

theorem slotTokens_selectSlots_fill (r : Relation) (rename : Bool) :
    slotTokens (selectSlots rename (r.fill σ)) = (selectSlots rename r).map (Slot.fill σ) :=
  structural_slotTokens_fill.of_relation r rename

/-! ## what can be read -/

theorem Literal.Legible.fill {l : Literal} (h : l.Legible) : (l.fill σ).Legible := by
  cases l with
  | number x => exact h
  | _ => exact fun _ hx => nomatch hx

theorem Attribute.Legible.fill {a : Attribute} (h : a.Legible) : (a.fill σ).Legible := h

theorem Relation.Legible.fill {r : Relation} (h : r.Legible) : (r.fill σ).Legible where
  source := by
    rw [Relation.fill_eq]
    exact h.source
  sources_ne_nil := by
    rw [Relation.fill_eq]
    exact h.sources_ne_nil
  key := by
    rw [Relation.columns_fill, List.forall_mem_map]
    exact h.key
  columns_ne_nil := by
    rw [Relation.columns_fill, Ne, List.map_eq_nil_iff]
    exact h.columns_ne_nil
  leaf := by
    rw [Relation.leaves_fill, List.forall_mem_map]
    exact fun a ha => (h.leaf a ha).fill
  literal := by
    rw [Relation.literals_fill, List.forall_mem_map]
    exact fun l hl => (h.literal l hl).fill

theorem Relation.DeepLegible.fill {r : Relation} (h : r.DeepLegible) : (r.fill σ).DeepLegible := by
  intro t ht
  obtain ⟨s, hs, rfl⟩ := ht.of_fill
  exact (h s hs).fill

theorem Expr.DeepLegible.fill {e : Expr} (h : e.DeepLegible) : (e.fill σ).DeepLegible where
  leaf := by
    rw [Expr.leaves_fill, List.forall_mem_map]
    exact fun a ha => (h.leaf a ha).fill
  literal := by
    rw [Expr.literals_fill, List.forall_mem_map]
    exact fun l hl => (h.literal l hl).fill
  subselect := by
    rw [Expr.subselects_fill, List.forall_mem_map]
    exact fun r hr => (h.subselect r hr).fill

theorem reads_exprText_fill {e : Expr} (h : e.DeepLegible) (d : Dialect) (qualified : Bool) (σ : String → String) :
    Reads (exprText d qualified (e.fill σ)) ((exprSlots qualified e).map (Slot.fill σ)) := by
  rw [← slotTokens_exprSlots_fill]
  exact reads_exprText h.fill qualified

theorem reads_selectText_fill {r : Relation} (h : r.DeepLegible) (d : Dialect) (rename : Bool) (σ : String → String) :
    Reads (selectText d rename (r.fill σ)) ((selectSlots rename r).map (Slot.fill σ)) := by
  rw [← slotTokens_selectSlots_fill]
  exact structural_reads.of_relation (r.fill σ) h.fill rename

end TableAlgebra
