import SlotLedger.Ledger.Logic
import SlotLedger.Proofs.Layout.Takeover
import SlotLedger.Proofs.Ledger.Commit
import SlotLedger.Proofs.Outcome

/-!
# Bindings of logic

Logic finds the ledger's fields by name and type.  Where a layout takes over another, it has the
fields of the old one as they were, so whatever logic binds to it finds them at the same slots.
The audited counter is bound exactly where the logic keeps it, and once declared it stays.

## Main results

* `Logic.bind_eq_ok_iff`: what logic binds to
* `Logic.isLow_of_bind`: single words are bound to low slots
* `Logic.rebinds_of_isAllowed`: an allowed layout is bound to the same slots
* `Logic.eq_of_bind`: logics bind to one schema in one way
-/

namespace SlotLedger

theorem SlotIndex.toNat_slot (i : SlotIndex) : (SlotIndex.slot i).toNat = i.toNat := by
  have hi := i.toNat_lt
  rw [slot, BitVec.toNat_ofNat]
  exact Nat.mod_eq_of_lt (by omega)

namespace Bindings

theorem slotOf_eq_ok_iff {schema : Schema} {name : String} {expected : SemanticType}
    {slot : Slot} :
    slotOf schema name expected = .ok slot ↔
      ∃ f, schema.field? name = some f ∧ f.semanticType = expected ∧ slot = f.slotIndex.slot := by
  unfold slotOf
  cases schema.field? name with
  | none => simp
  | some f =>
    by_cases htype : f.semanticType = expected
    · simp [htype, eq_comm]
    · simp [htype]

/-- Only declared fields have slots. -/
theorem field?_ne_none_of_slotOf {schema : Schema} {name : String} {expected : SemanticType}
    {slot : Slot} (h : slotOf schema name expected = .ok slot) : schema.field? name ≠ none := by
  obtain ⟨f, hf, -⟩ := slotOf_eq_ok_iff.mp h
  rw [hf]
  exact Option.some_ne_none f

/-- Fields are bound to low slots. -/
theorem slot_lt_of_slotOf {schema : Schema} {name : String} {expected : SemanticType} {slot : Slot}
    (h : slotOf schema name expected = .ok slot) : slot.toNat < UInt64.size := by
  obtain ⟨f, -, -, rfl⟩ := slotOf_eq_ok_iff.mp h
  rw [SlotIndex.toNat_slot]
  exact f.slotIndex.toNat_lt

/-- An allowed layout has the bound fields of the old one where they were. -/
theorem slotOf_of_isAllowed {old new : Schema} (hallowed : (old.checkUpgrade new).isAllowed = true)
    {name : String} {expected : SemanticType} {slot : Slot}
    (h : slotOf old name expected = .ok slot) : slotOf new name expected = .ok slot := by
  obtain ⟨f, hf, htype, hslot⟩ := slotOf_eq_ok_iff.mp h
  obtain ⟨hmem, rfl⟩ := Schema.mem_of_field?_eq_some hf
  exact slotOf_eq_ok_iff.mpr ⟨f, Schema.field?_of_isAllowed hallowed hmem, htype, hslot⟩

/-- The audited counter is bound if the schema has it, and may be missing only if it is not
required. -/
theorem auditedSlotOf_eq_ok_iff {schema : Schema} {required : Bool} {slot : Option Slot} :
    auditedSlotOf schema required = .ok slot ↔
      (∃ s, slot = some s ∧ slotOf schema FieldName.totalAudited .uint256 = .ok s) ∨
        slot = none ∧ schema.field? FieldName.totalAudited = none ∧ required = false := by
  unfold auditedSlotOf
  cases hf : schema.field? FieldName.totalAudited with
  | none =>
    have hmissing : ∀ s, slotOf schema FieldName.totalAudited .uint256 ≠ .ok s := by
      intro s hs
      obtain ⟨f, hf', -⟩ := slotOf_eq_ok_iff.mp hs
      rw [hf] at hf'
      cases hf'
    cases required <;> simp [hmissing, eq_comm]
  | some f =>
    simp only [map_eq_ok_iff, reduceCtorEq, false_and, and_false, or_false]
    exact exists_congr fun s => and_comm.trans (and_congr_left' eq_comm)

theorem resolve_eq_ok_iff {schema : Schema} {requireAudit : Bool} {b : Bindings} :
    resolve schema requireAudit = .ok b ↔
      auditedSlotOf schema requireAudit = .ok b.totalAudited ∧
        slotOf schema FieldName.initialized .uint8 = .ok b.initialized ∧
        slotOf schema FieldName.balances balancesType = .ok b.balances ∧
        slotOf schema FieldName.totalSupply .uint256 = .ok b.totalSupply ∧
        slotOf schema FieldName.roles rolesType = .ok b.roles := by
  simp only [resolve, bind_eq_ok_iff]
  constructor
  · rintro ⟨audited, haudited, initialized, hinitialized, balances, hbalances, supply, hsupply,
      roles, hroles, hb⟩
    cases hb
    exact ⟨haudited, hinitialized, hbalances, hsupply, hroles⟩
  · rintro ⟨haudited, hinitialized, hbalances, hsupply, hroles⟩
    exact ⟨_, haudited, _, hinitialized, _, hbalances, _, hsupply, _, hroles, rfl⟩

end Bindings

namespace Logic

open Bindings

/-- **What logic binds to**: the four fields of every ledger, and the audited counter exactly where
the logic keeps it. -/
theorem bind_eq_ok_iff {logic : Logic} {schema : Schema} {b : Bindings} :
    logic.bind schema = .ok b ↔
      (slotOf schema FieldName.initialized .uint8 = .ok b.initialized ∧
          slotOf schema FieldName.balances balancesType = .ok b.balances ∧
          slotOf schema FieldName.totalSupply .uint256 = .ok b.totalSupply ∧
          slotOf schema FieldName.roles rolesType = .ok b.roles) ∧
        ((logic.enforcesAuditCap = true ∧ ∃ s, b.totalAudited = some s ∧
            slotOf schema FieldName.totalAudited .uint256 = .ok s) ∨
          logic.enforcesAuditCap = false ∧ b.totalAudited = none ∧
            schema.field? FieldName.totalAudited = none) := by
  rw [bind, SlotLedger.bind_eq_ok_iff]
  simp only [resolve_eq_ok_iff, auditedSlotOf_eq_ok_iff]
  cases hcap : logic.enforcesAuditCap with
  | true => grind
  | false => grind

/-- Single words are bound to low slots. -/
theorem isLow_of_bind {logic : Logic} {schema : Schema} {b : Bindings}
    (h : logic.bind schema = .ok b) : b.IsLow := by
  obtain ⟨⟨hinitialized, -, hsupply, -⟩, haudited⟩ := bind_eq_ok_iff.mp h
  refine ⟨slot_lt_of_slotOf hinitialized, slot_lt_of_slotOf hsupply, ?_⟩
  rcases haudited with ⟨-, s, hs, hslot⟩ | ⟨-, hnone, -⟩
  · rw [hs]
    rintro _ ⟨rfl⟩
    exact slot_lt_of_slotOf hslot
  · rw [hnone]
    rintro _ ⟨⟩

/-- The audited counter is bound exactly where the schema declares it. -/
theorem isSome_totalAudited_of_bind {logic : Logic} {schema : Schema} {b : Bindings}
    (h : logic.bind schema = .ok b) :
    b.totalAudited.isSome = (schema.field? FieldName.totalAudited).isSome := by
  rcases (bind_eq_ok_iff.mp h).2 with ⟨-, s, hs, hslot⟩ | ⟨-, hnone, hfield⟩
  · obtain ⟨f, hf, -⟩ := slotOf_eq_ok_iff.mp hslot
    rw [hs, hf]
    rfl
  · rw [hnone, hfield]
    rfl

/-- The slots of a ledger's fields where a layout takes over: those bound stay, and a counter may
come. -/
structure Rebinds (b b' : Bindings) : Prop where
  initialized : b'.initialized = b.initialized
  balances : b'.balances = b.balances
  totalSupply : b'.totalSupply = b.totalSupply
  roles : b'.roles = b.roles
  totalAudited : ∀ s ∈ b.totalAudited, b'.totalAudited = some s

theorem Rebinds.refl (b : Bindings) : Rebinds b b := ⟨rfl, rfl, rfl, rfl, fun _ hs => hs⟩

theorem Rebinds.trans {b b' b'' : Bindings} (h : Rebinds b b') (h' : Rebinds b' b'') :
    Rebinds b b'' where
  initialized := h'.initialized.trans h.initialized
  balances := h'.balances.trans h.balances
  totalSupply := h'.totalSupply.trans h.totalSupply
  roles := h'.roles.trans h.roles
  totalAudited s hs := h'.totalAudited s (h.totalAudited s hs)

/-- Cells stay where they are. -/
theorem Rebinds.cellSlot_eq {b b' : Bindings} (h : Rebinds b b') : b'.cellSlot = b.cellSlot :=
  cellSlot_congr h.balances h.roles

/-- **An allowed layout is bound to the same slots**, whatever the logic. -/
theorem rebinds_of_isAllowed {old new : Schema} (hallowed : (old.checkUpgrade new).isAllowed = true)
    {logic logic' : Logic} {b b' : Bindings} (h : logic.bind old = .ok b)
    (h' : logic'.bind new = .ok b') : Rebinds b b' := by
  obtain ⟨⟨hinitialized, hbalances, hsupply, hroles⟩, haudited⟩ := bind_eq_ok_iff.mp h
  obtain ⟨⟨hinitialized', hbalances', hsupply', hroles'⟩, haudited'⟩ := bind_eq_ok_iff.mp h'
  -- The old binding of a name carries over, and a name has one binding.
  have hsame : ∀ {name : String} {expected : SemanticType} {s s' : Slot},
      slotOf old name expected = .ok s → slotOf new name expected = .ok s' → s' = s := by
    intro name expected s s' hs hs'
    exact Except.ok.inj (hs'.symm.trans (slotOf_of_isAllowed hallowed hs))
  refine ⟨hsame hinitialized hinitialized', hsame hbalances hbalances', hsame hsupply hsupply',
    hsame hroles hroles', ?_⟩
  intro s hs
  rcases haudited with ⟨-, s₀, hs₀, hslot⟩ | ⟨-, hnone, -⟩
  · obtain rfl : s₀ = s := Option.some.inj (hs₀.symm.trans hs)
    rcases haudited' with ⟨-, s', hs', hslot'⟩ | ⟨-, -, hfield⟩
    · rw [hs', hsame hslot hslot']
    · -- Logic without a counter does not bind to a schema that declares one.
      exact absurd hfield (field?_ne_none_of_slotOf (slotOf_of_isAllowed hallowed hslot))
  · rw [hnone] at hs
    cases hs

/-- **Logics that bind to one schema bind to the same slots.** -/
theorem eq_of_bind {schema : Schema} {logic logic' : Logic} {b b' : Bindings}
    (h : logic.bind schema = .ok b) (h' : logic'.bind schema = .ok b') : b' = b := by
  obtain ⟨⟨hinitialized, hbalances, hsupply, hroles⟩, haudited⟩ := bind_eq_ok_iff.mp h
  obtain ⟨⟨hinitialized', hbalances', hsupply', hroles'⟩, haudited'⟩ := bind_eq_ok_iff.mp h'
  -- The schema declares the counter or it does not, and either logic goes by that.
  have hcounter : b'.totalAudited = b.totalAudited := by
    rcases haudited with ⟨-, s, hs, hslot⟩ | ⟨-, hs, hfield⟩ <;>
      rcases haudited' with ⟨-, s', hs', hslot'⟩ | ⟨-, hs', hfield'⟩
    · rw [hs, hs', Except.ok.inj (hslot'.symm.trans hslot)]
    · exact absurd hfield' (field?_ne_none_of_slotOf hslot)
    · exact absurd hfield (field?_ne_none_of_slotOf hslot')
    · rw [hs, hs']
  obtain ⟨initialized, balances, supply, roles, audited⟩ := b
  obtain ⟨initialized', balances', supply', roles', audited'⟩ := b'
  rw [Bindings.mk.injEq]
  exact ⟨Except.ok.inj (hinitialized'.symm.trans hinitialized),
    Except.ok.inj (hbalances'.symm.trans hbalances), Except.ok.inj (hsupply'.symm.trans hsupply),
    Except.ok.inj (hroles'.symm.trans hroles), hcounter⟩

end Logic

end SlotLedger
