import SlotLedger.Proofs.Ledger.Binding
import SlotLedger.Proofs.Ledger.Run

/-!
# Across an upgrade

An upgrade binds the new logic to the new layout and zeroes the slots of the fields that came with
it.  The ranges zeroed are bounded by ends that are held back at the greatest position, so they may
be shorter than the fields; they are never longer.  No range reaches the base slot of an old field
and none leaves the low slots, hence every counter and every cell at a hashed slot is read after an
upgrade as before.

## Main definitions

* `Field.Clears`: the slots that a new field has zeroed

## Main results

* `Ledger.load_clearAppended`: storage after the ranges are zeroed
* `Ledger.load_clearAppended_of_slotOf`: the base slot of an old field keeps its word
* `Ledger.load_clearAppended_of_le`: slots beyond the low ones keep their words
* `Ledger.totalSupply_upgrade`, `Ledger.totalAudited_upgrade`, `Ledger.cell_upgrade`: what an
  accepted upgrade leaves as it was
* `Ledger.rebinds_run`: what is bound stays bound to its slot along a run
-/

namespace SlotLedger

/-- The slot is zeroed when the field is added. -/
def Field.Clears (f : Field) (slot : Slot) : Prop :=
  f.semanticType.isMapping = false ∧ f.slotIndex.toNat ≤ slot.toNat ∧
    slot.toNat < f.slotEnd.toNat

instance (f : Field) (slot : Slot) : Decidable (f.Clears slot) :=
  inferInstanceAs (Decidable (_ ∧ _ ∧ _))

/-- No field that starts at or after the end of another has the base slot of the other zeroed. -/
theorem Field.Precedes.not_clears {f g : Field} (h : f.Precedes g) :
    ¬ g.Clears f.slotIndex.slot := by
  rintro ⟨-, hstart, hstop⟩
  have hf := f.toNat_slotEnd
  have hg := g.toNat_slotEnd
  have hpos := f.slotSpan_pos
  have hspan := g.slotIndex.toNat_lt
  have hle : f.slotEnd.toNat ≤ g.slotIndex.toNat := UInt64.le_iff_toNat_le.mp h
  rw [SlotIndex.toNat_slot] at hstart hstop
  -- Both fields would start at the greatest position, where the range of the second is empty.
  simp only [UInt64.size] at hf hg
  omega

namespace Ledger

/-! ## Zeroed ranges -/

theorem clearAppended_cons (s : Storage) (f : Field) (rest : List Field) :
    clearAppended s (f :: rest) =
      clearAppended (if f.semanticType.isMapping then s
        else s.clearRange f.slotIndex.slot f.slotEnd.slot) rest := rfl

theorem load_clearRange_field (s : Storage) (f : Field) (slot : Slot) :
    (if f.semanticType.isMapping then s
      else s.clearRange f.slotIndex.slot f.slotEnd.slot).load slot =
      if f.Clears slot then 0 else s.load slot := by
  by_cases hmapping : f.semanticType.isMapping = true
  · rw [if_pos hmapping, if_neg]
    rintro ⟨hinline, -⟩
    rw [hmapping] at hinline
    cases hinline
  · rw [if_neg hmapping, Storage.load_clearRange]
    simp only [Field.Clears, hmapping, BitVec.le_def, BitVec.lt_def, SlotIndex.toNat_slot, true_and]

/-- **Storage after the ranges of new fields are zeroed**: slots in a range read zero, all others as
before. -/
theorem load_clearAppended (s : Storage) (fields : List Field) (slot : Slot) :
    (clearAppended s fields).load slot =
      if ∃ f ∈ fields, f.Clears slot then 0 else s.load slot := by
  -- On the fields: zeroing in the rest keeps what the first zeroed.
  induction fields generalizing s with
  | nil => simp [clearAppended]
  | cons f rest ih =>
    rw [clearAppended_cons, ih, load_clearRange_field]
    simp only [List.mem_cons, exists_eq_or_imp]
    by_cases hrest : ∃ g ∈ rest, g.Clears slot
    · rw [if_pos hrest, if_pos (.inr hrest)]
    · simp only [hrest, or_false, if_false]

theorem load_clearAppended_of_forall_not (s : Storage) {fields : List Field} {slot : Slot}
    (h : ∀ f ∈ fields, ¬ f.Clears slot) : (clearAppended s fields).load slot = s.load slot := by
  rw [load_clearAppended, if_neg]
  rintro ⟨f, hf, hclears⟩
  exact h f hf hclears

/-- Zeroed slots are low. -/
theorem load_clearAppended_of_le (s : Storage) (fields : List Field) {slot : Slot}
    (hslot : UInt64.size ≤ slot.toNat) : (clearAppended s fields).load slot = s.load slot := by
  refine load_clearAppended_of_forall_not s fun f _ hclears => ?_
  exact absurd (Nat.lt_trans hclears.2.2 f.slotEnd.toNat_lt) (Nat.not_lt.mpr hslot)

/-- The base slot of an old field keeps its word where an allowed layout takes over. -/
theorem load_clearAppended_of_slotOf (s : Storage) {old new : Schema}
    (hallowed : (old.checkUpgrade new).isAllowed = true) {name : String} {expected : SemanticType}
    {slot : Slot} (hslot : Bindings.slotOf old name expected = .ok slot) :
    (clearAppended s (old.checkUpgrade new).appendedFields).load slot = s.load slot := by
  obtain ⟨f, hf, -, rfl⟩ := Bindings.slotOf_eq_ok_iff.mp hslot
  have hmem := (Schema.mem_of_field?_eq_some hf).1
  exact load_clearAppended_of_forall_not s fun g hg =>
    (Schema.precedes_of_mem_appendedFields hallowed hmem hg).not_clears

/-! ## Accepted upgrades -/

section Accepted

variable {l m : Ledger} {schema : Schema} {logic : Logic} {r : UpgradeRecord}
  (hl : l.IsBound) (hupgrade : l.upgrade schema logic = .ok (m, r))

include hl hupgrade

/-- The fields of the old layout are bound to the same slots. -/
theorem rebinds_upgrade : Logic.Rebinds l.bindings m.bindings := by
  obtain ⟨⟨-, -, hallowed, -⟩, b, hbind, rfl, -⟩ := upgrade_eq_ok_iff.mp hupgrade
  exact Logic.rebinds_of_isAllowed hallowed hl.bound hbind

/-- The supply stays. -/
theorem totalSupply_upgrade : m.totalSupply = l.totalSupply := by
  have hslot : m.bindings.totalSupply = l.bindings.totalSupply :=
    (rebinds_upgrade hl hupgrade).totalSupply
  obtain ⟨⟨-, -, hallowed, -⟩, b, hbind, rfl, -⟩ := upgrade_eq_ok_iff.mp hupgrade
  obtain ⟨⟨-, -, hsupply, -⟩, -⟩ := Logic.bind_eq_ok_iff.mp hl.bound
  rw [totalSupply, View.totalSupply, view, hslot]
  exact load_clearAppended_of_slotOf l.storage hallowed hsupply

/-- The audited amount stays, where there was a counter before. -/
theorem totalAudited_upgrade {x : Amount} (hx : l.totalAudited = some x) :
    m.totalAudited = some x := by
  have hrebinds := rebinds_upgrade hl hupgrade
  obtain ⟨⟨-, -, hallowed, -⟩, b, hbind, rfl, -⟩ := upgrade_eq_ok_iff.mp hupgrade
  obtain ⟨slot, hslot, hload⟩ := Option.map_eq_some_iff.mp hx
  rcases (Logic.bind_eq_ok_iff.mp hl.bound).2 with ⟨-, slot', hslot', haudited⟩ | ⟨-, hnone, -⟩
  · obtain rfl : slot' = slot := Option.some.inj (hslot'.symm.trans hslot)
    have hbound : (l.upgraded schema logic b).bindings.totalAudited = some slot' :=
      hrebinds.totalAudited _ hslot
    rw [totalAudited, View.totalAudited, view, hbound, ← hload]
    exact congrArg some (load_clearAppended_of_slotOf l.storage hallowed haudited)
  · exact absurd (hnone.symm.trans hslot) nofun

/-- Every cell at a hashed slot stays. -/
theorem cell_upgrade {c : Cell} (hc : UInt64.size ≤ (l.bindings.cellSlot c).toNat) :
    m.cell c = l.cell c := by
  rw [cell, (rebinds_upgrade hl hupgrade).cellSlot_eq]
  obtain ⟨-, b, -, rfl, -⟩ := upgrade_eq_ok_iff.mp hupgrade
  exact load_clearAppended_of_le l.storage _ hc

end Accepted

/-! ## Calls and runs -/

theorem rebinds_after {l : Ledger} (hl : l.IsBound) (c : Call) :
    Logic.Rebinds l.bindings (l.after c).bindings := by
  rcases l.after_cases c with ⟨-, hm⟩ | ⟨schema, logic, r, -, hupgrade⟩ | ⟨hm, -⟩
  · rw [hm]
    exact .refl _
  · exact rebinds_upgrade hl hupgrade
  · rw [hm]
    exact .refl _

/-- Whatever is bound stays bound to its slot. -/
theorem rebinds_run {l : Ledger} (hl : l.IsBound) (calls : List Call) :
    Logic.Rebinds l.bindings (l.run calls).bindings :=
  run_induction_of_isBound (P := fun m => Logic.Rebinds l.bindings m.bindings)
    (fun _ c hm hrebinds => hrebinds.trans (rebinds_after hm c)) hl (.refl _) calls

end Ledger

end SlotLedger
