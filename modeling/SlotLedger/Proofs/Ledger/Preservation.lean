import SlotLedger.Proofs.Layout.Slots
import SlotLedger.Proofs.Ledger.AuditCap
import SlotLedger.Proofs.Ledger.Conservation

/-!
# What an upgrade preserves

An upgrade changes how storage is read and zeroes what the new fields take; a refused upgrade
changes nothing.  The slots zeroed for a new field are those below the greatest position: its end is
held back there, so a slot from there on keeps its word.  All slots of the new fields read zero, and
a new counter starts at zero, exactly as far as these fields end in range or find zero where nothing
is zeroed.

## Main definitions

* `Ledger.Refusal`: the check that an upgrade fails, and the error it gives
* `Ledger.Carries`: what every accepted upgrade keeps, zeroes and records
* `Ledger.TakesOver`: what it does if the new fields start at zero

## Main results

* `Ledger.refusal_of_upgrade_eq_error`: every refusal has its cause
* `Ledger.carries_of_upgrade`: one accepted upgrade of a bound ledger
* `Ledger.takesOver_iff`: when its new fields start at zero
* `Ledger.upgrade_preserves_run`: upgrades of every ledger that a run reaches
-/

namespace SlotLedger

namespace Field

/-- Every slot zeroed lies below the greatest position, where ends are held back. -/
theorem Clears.lt_last {f : Field} {slot : Slot} (h : f.Clears slot) :
    slot.toNat < UInt64.size - 1 := by
  have hend := f.toNat_slotEnd
  have hstop := h.2.2
  omega

/-- The slots zeroed for a field are its own below the greatest position. -/
theorem clears_iff {f : Field} {slot : Slot} :
    f.Clears slot ↔
      f.semanticType.isMapping = false ∧ slot.toNat ∈ f.slots ∧ slot.toNat ∉ f.slotsFromLast := by
  have hend := f.toNat_slotEnd
  constructor
  · intro hclears
    have hbelow := hclears.lt_last
    obtain ⟨hinline, hstart, hstop⟩ := hclears
    exact ⟨hinline, ⟨hstart, by omega⟩, fun hlast => absurd hlast.2 (Nat.not_le.mpr hbelow)⟩
  · rintro ⟨hinline, ⟨hstart, hstop⟩, hbelow⟩
    have hlast : ¬ UInt64.size - 1 ≤ slot.toNat := fun hlast => hbelow ⟨⟨hstart, hstop⟩, hlast⟩
    exact ⟨hinline, hstart, by omega⟩

/-- No field has a slot zeroed that another has from the greatest position on. -/
theorem not_clears_of_mem_slotsFromLast {f : Field} {slot : Slot}
    (hslot : slot.toNat ∈ f.slotsFromLast) (g : Field) : ¬ g.Clears slot := fun hclears =>
  absurd hslot.2 (Nat.not_le.mpr hclears.lt_last)

theorem toNat_slotIndex_mem_slots (f : Field) : f.slotIndex.slot.toNat ∈ f.slots := by
  have hspan := f.slotSpan_pos
  rw [SlotIndex.toNat_slot]
  exact ⟨Nat.le_refl _, by omega⟩

end Field

namespace Ledger

/-! ## Refused upgrades -/

/-- A check that an upgrade fails, and the error it gives. -/
inductive Refusal (l : Ledger) (schema : Schema) (logic : Logic) : UpgradeError → Prop where
  | notUpgradeable : l.upgradeable = false → Refusal l schema logic .notUpgradeable
  | notUpgradeSafe :
    logic.initialization = .constructor → Refusal l schema logic (.notUpgradeSafe logic.name)
  | incompatibleLayout :
    ¬ l.schema.Keeps schema →
      Refusal l schema logic (.incompatibleLayout (l.schema.checkUpgrade schema))
  | invalid {e : SchemaError} : schema.validate = .error e → Refusal l schema logic (.schema e)
  | unbound {e : SchemaError} : logic.bind schema = .error e → Refusal l schema logic (.schema e)

/-- **Every refusal has its cause.** -/
theorem refusal_of_upgrade_eq_error {l : Ledger} {schema : Schema} {logic : Logic}
    {e : UpgradeError} (h : l.upgrade schema logic = .error e) : l.Refusal schema logic e := by
  rw [upgrade_eq_bind, seq_eq_error_iff, seq_eq_error_iff, seq_eq_error_iff, seq_eq_error_iff,
    bind_eq_error_iff] at h
  -- The checks are made one after another, and the first that fails gives the error.
  rcases h with hfixed | ⟨-, hunsafe | ⟨-, hrejected | ⟨-, hinvalid | ⟨-, hunbound | ⟨_, _, hok⟩⟩⟩⟩⟩
  · split at hfixed
    · rename_i hfixed'
      cases hfixed
      exact .notUpgradeable (by simpa using hfixed')
    · cases hfixed
  · unfold requireUpgradeSafe at hunsafe
    cases hinit : logic.initialization with
    | initializer =>
      rw [hinit] at hunsafe
      cases hunsafe
    | constructor =>
      rw [hinit] at hunsafe
      cases hunsafe
      exact .notUpgradeSafe hinit
  · split at hrejected
    · rename_i hrejected'
      cases hrejected
      refine .incompatibleLayout ?_
      rw [← Schema.isAllowed_checkUpgrade_iff]
      simpa using hrejected'
    · cases hrejected
  · obtain ⟨e, he, rfl⟩ := mapError_eq_error_iff.mp hinvalid
    exact .invalid he
  · obtain ⟨e, he, rfl⟩ := mapError_eq_error_iff.mp hunbound
    exact .unbound he
  · cases hok

theorem after_of_call_eq_error {l : Ledger} {c : Call} {e : OperationError}
    (h : l.call c = .error e) : l.after c = l := by
  rw [after, h]

theorem after_upgrade_of_eq_error {l : Ledger} {schema : Schema} {logic : Logic}
    {e : UpgradeError} (h : l.upgrade schema logic = .error e) :
    l.after (.upgrade schema logic) = l := by
  refine after_of_call_eq_error (e := .upgrade e) ?_
  rw [call, h]
  rfl

/-! ## Accepted upgrades -/

/-- What every accepted upgrade does.  Funds, members and counters stay, and the history has one
record more.  The slots of new fields that are no mappings read zero below the greatest position;
all others, and those from there on, read as before. -/
structure Carries (before after : Ledger) (record : UpgradeRecord) (considered : Set Account) :
    Prop where
  balanceOf : ∀ a ∈ considered, after.balanceOf a = before.balanceOf a
  hasRole : ∀ role, ∀ a ∈ considered, after.hasRole role a = before.hasRole role a
  totalSupply : after.totalSupply = before.totalSupply
  totalAudited : before.HasCounter → after.totalAudited = before.totalAudited
  appendedFields : record.appendedFields = Schema.appended before.schema after.schema
  untouched : ∀ slot : Slot,
    (∀ f ∈ record.appendedFields, f.semanticType.isMapping = false → slot.toNat ∉ f.slots) →
      after.storage.load slot = before.storage.load slot
  cleared : ∀ f ∈ record.appendedFields, f.semanticType.isMapping = false →
    ∀ slot : Slot, slot.toNat ∈ f.slots → slot.toNat ∉ f.slotsFromLast →
      after.storage.load slot = 0
  leftOut : ∀ f ∈ record.appendedFields, ∀ slot : Slot, slot.toNat ∈ f.slotsFromLast →
    after.storage.load slot = before.storage.load slot
  history : after.history = before.history ++ [record]

/-- What an accepted upgrade does if the new fields start at zero: it carries all else over, a
counter that is new stands at zero, and so do all slots of new fields that are no mappings. -/
structure TakesOver (before after : Ledger) (record : UpgradeRecord) (considered : Set Account) :
    Prop extends Carries before after record considered where
  newCounter : ¬ before.HasCounter → after.HasCounter → after.totalAudited = some 0
  zeroed : ∀ f ∈ record.appendedFields, f.semanticType.isMapping = false →
    ∀ slot : Slot, slot.toNat ∈ f.slots → after.storage.load slot = 0

section Accepted

variable {l m : Ledger} {schema : Schema} {logic : Logic} {r : UpgradeRecord}
  (hl : l.IsBound) (hupgrade : l.upgrade schema logic = .ok (m, r))

include hupgrade

theorem schema_upgrade : m.schema = schema := by
  obtain ⟨-, b, -, rfl, -⟩ := upgrade_eq_ok_iff.mp hupgrade
  rfl

theorem appendedFields_upgrade : r.appendedFields = Schema.appended l.schema schema := by
  obtain ⟨⟨-, -, hallowed, -⟩, b, -, -, rfl⟩ := upgrade_eq_ok_iff.mp hupgrade
  exact Schema.appendedFields_checkUpgrade hallowed

theorem history_upgrade : m.history = l.history ++ [r] := by
  obtain ⟨-, b, -, rfl, rfl⟩ := upgrade_eq_ok_iff.mp hupgrade
  rfl

/-- Storage after an upgrade: slots zeroed for a new field read zero, all others as before. -/
theorem load_upgrade (slot : Slot) :
    m.storage.load slot =
      if ∃ f ∈ r.appendedFields, f.Clears slot then 0 else l.storage.load slot := by
  obtain ⟨-, b, -, rfl, rfl⟩ := upgrade_eq_ok_iff.mp hupgrade
  exact load_clearAppended ..

theorem load_upgrade_of_clears {f : Field} (hf : f ∈ r.appendedFields) {slot : Slot}
    (hclears : f.Clears slot) : m.storage.load slot = 0 := by
  rw [load_upgrade hupgrade, if_pos ⟨f, hf, hclears⟩]

theorem load_upgrade_of_forall_not {slot : Slot} (h : ∀ f ∈ r.appendedFields, ¬ f.Clears slot) :
    m.storage.load slot = l.storage.load slot := by
  rw [load_upgrade hupgrade, if_neg]
  rintro ⟨f, hf, hclears⟩
  exact h f hf hclears

/-- A counter that comes with the new layout is one of the fields appended. -/
theorem exists_totalAudited_upgrade (hbefore : ¬ l.HasCounter) (hafter : m.HasCounter) :
    ∃ f ∈ r.appendedFields, f.semanticType.isMapping = false ∧
      m.totalAudited = some (m.storage.load f.slotIndex.slot) := by
  obtain ⟨-, b, hbind, rfl, -⟩ := upgrade_eq_ok_iff.mp hupgrade
  rcases (Logic.bind_eq_ok_iff.mp hbind).2 with ⟨-, slot, hslot, hof⟩ | ⟨-, -, hmissing⟩
  · obtain ⟨f, hf, htype, rfl⟩ := Bindings.slotOf_eq_ok_iff.mp hof
    obtain ⟨hmem, hname⟩ := Schema.mem_of_field?_eq_some hf
    refine ⟨f, ?_, by rw [htype]; rfl, ?_⟩
    · -- The old layout has no field of this name.
      rw [appendedFields_upgrade hupgrade, Schema.appended, List.mem_filter, hname]
      exact ⟨hmem, by simpa [HasCounter] using hbefore⟩
    · have hbound : (l.upgraded schema logic b).totalAudited =
          b.totalAudited.map (l.upgraded schema logic b).storage.load := rfl
      rw [hbound, hslot, Option.map_some]
  · have hdeclared : (schema.field? FieldName.totalAudited).isSome = true := hafter
    rw [hmissing] at hdeclared
    cases hdeclared

include hl

/-- **One accepted upgrade of a bound ledger.** -/
theorem carries_of_upgrade {considered : Set Account} (hhigh : l.bindings.CellsHigh considered) :
    l.Carries m r considered where
  balanceOf a ha := by
    rw [balanceOf_eq_cell, balanceOf_eq_cell, cell_upgrade hl hupgrade (hhigh (.balance a) ha)]
  hasRole role a ha := by
    rw [hasRole_eq_cell, hasRole_eq_cell, cell_upgrade hl hupgrade (hhigh (.member role a) ha)]
  totalSupply := totalSupply_upgrade hl hupgrade
  totalAudited hcounter := by
    obtain ⟨x, hx⟩ := (hasCounter_iff hl).mp hcounter
    rw [totalAudited_upgrade hl hupgrade hx, hx]
  appendedFields := by rw [appendedFields_upgrade hupgrade, schema_upgrade hupgrade]
  untouched slot hslot := by
    refine load_upgrade_of_forall_not hupgrade fun f hf hclears => ?_
    obtain ⟨hinline, hmem, -⟩ := Field.clears_iff.mp hclears
    exact hslot f hf hinline hmem
  cleared f hf hinline slot hslot hbelow :=
    load_upgrade_of_clears hupgrade hf (Field.clears_iff.mpr ⟨hinline, hslot, hbelow⟩)
  leftOut f _ slot hlast :=
    load_upgrade_of_forall_not hupgrade fun g _ => Field.not_clears_of_mem_slotsFromLast hlast g
  history := history_upgrade hupgrade

/-- **When the new fields start at zero**: exactly if each of them ends in range, so that all its
slots are zeroed, or its slots from the greatest position on read zero before. -/
theorem takesOver_iff {considered : Set Account} (hhigh : l.bindings.CellsHigh considered) :
    l.TakesOver m r considered ↔
      ∀ f ∈ r.appendedFields, f.semanticType.isMapping = false →
        f.EndsInRange ∨
          ∀ slot : Slot, slot.toNat ∈ f.slotsFromLast → l.storage.load slot = 0 := by
  have hcarries := carries_of_upgrade hl hupgrade hhigh
  constructor
  · intro htakesOver f hf hinline
    refine .inr fun slot hlast => ?_
    rw [← hcarries.leftOut f hf slot hlast]
    exact htakesOver.zeroed f hf hinline slot hlast.1
  · intro hfound
    have hzeroed : ∀ f ∈ r.appendedFields, f.semanticType.isMapping = false →
        ∀ slot : Slot, slot.toNat ∈ f.slots → m.storage.load slot = 0 := by
      intro f hf hinline slot hslot
      by_cases hlast : slot.toNat ∈ f.slotsFromLast
      · rw [hcarries.leftOut f hf slot hlast]
        rcases hfound f hf hinline with hend | hzero
        · rw [f.slotsFromLast_eq_empty_iff.mpr hend] at hlast
          cases hlast
        · exact hzero slot hlast
      · exact hcarries.cleared f hf hinline slot hslot hlast
    refine ⟨hcarries, fun hbefore hafter => ?_, hzeroed⟩
    -- A counter that is new reads what is at the base slot of a field appended.
    obtain ⟨f, hf, hinline, haudited⟩ := exists_totalAudited_upgrade hupgrade hbefore hafter
    rw [haudited, hzeroed f hf hinline _ f.toNat_slotIndex_mem_slots]

/-- New fields of a layout that ends in range start at zero. -/
theorem takesOver_of_upgrade (hrange : ∀ f ∈ schema.fields, f.EndsInRange)
    {considered : Set Account} (hhigh : l.bindings.CellsHigh considered) :
    l.TakesOver m r considered := by
  refine (takesOver_iff hl hupgrade hhigh).mpr fun f hf _ => .inl ?_
  rw [appendedFields_upgrade hupgrade] at hf
  exact hrange f (List.mem_of_mem_filter hf)

end Accepted

/-! ## Runs -/

/-- **An upgrade preserves the ledger or leaves it alone**, in every ledger that any calls under any
logic lead to, for every new schema and logic.  The new fields start at zero exactly if each that is
no mapping ends in range or finds zero on its slots from the greatest position on.  Of the hash it
is assumed that the cells of the accounts considered are no low slots. -/
theorem upgrade_preserves_run {schema₀ : Schema} {logic₀ : Logic} {deployer : Account} {l : Ledger}
    (hdeployed : IsDeployed schema₀ logic₀ deployer l) (calls : List Call)
    {considered : Set Account} (hhigh : l.bindings.CellsHigh considered) (schema : Schema)
    (logic : Logic) :
    (∀ m r, (l.run calls).upgrade schema logic = .ok (m, r) →
        (l.run calls).after (.upgrade schema logic) = m ∧
          (l.run calls).Carries m r considered ∧
          ((l.run calls).TakesOver m r considered ↔
            ∀ f ∈ r.appendedFields, f.semanticType.isMapping = false →
              f.EndsInRange ∨ ∀ slot : Slot, slot.toNat ∈ f.slotsFromLast →
                (l.run calls).storage.load slot = 0)) ∧
      ∀ e, (l.run calls).upgrade schema logic = .error e →
        (l.run calls).Refusal schema logic e ∧
          (l.run calls).after (.upgrade schema logic) = l.run calls := by
  constructor
  · intro m r hupgrade
    have hcall : (l.run calls).call (.upgrade schema logic) = .ok m := by
      rw [call, hupgrade]
      rfl
    -- Whatever layouts came since, the cells are bound to the slots where they were.
    have hhigh' : (l.run calls).bindings.CellsHigh considered := by
      rw [Bindings.CellsHigh, (rebinds_run hdeployed.isBound calls).cellSlot_eq]
      exact hhigh
    have hbound := isBound_run hdeployed.isBound calls
    exact ⟨after_of_call hcall, carries_of_upgrade hbound hupgrade hhigh',
      takesOver_iff hbound hupgrade hhigh'⟩
  · intro e he
    exact ⟨refusal_of_upgrade_eq_error he, after_upgrade_of_eq_error he⟩

/-- The second layout of the token with an array of two slots after a gap. -/
def reservingSchema : Schema :=
  ⟨"Reserving", 3, Schema.tokenV2.fields ++ [.ofType "_reserve" (.array .uint64 5) 8]⟩

set_option maxRecDepth 100000 in
/-- After a mint, a layout with a counter and an array takes over, and one with a field in between
is refused. -/
theorem upgrade_preserves_mint :
    ∃ l, IsDeployed .tokenV1 .tokenV1 0xd0 l ∧
      l.bindings.CellsHigh {a | a ∈ [0xd0, 0xb0]} ∧
      (∃ m r, (l.run [.mint 0xd0 0xd0 5]).upgrade reservingSchema .tokenV2 = .ok (m, r) ∧
        m.balanceOf 0xd0 = 5 ∧ r.appendedFields.length = 2 ∧
        (l.run [.mint 0xd0 0xd0 5]).TakesOver m r {a | a ∈ [0xd0, 0xb0]}) ∧
      ∃ e, (l.run [.mint 0xd0 0xd0 5]).upgrade .tokenV2Wrong .tokenV2 = .error e ∧
        (l.run [.mint 0xd0 0xd0 5]).Refusal .tokenV2Wrong .tokenV2 e ∧
        (l.run [.mint 0xd0 0xd0 5]).after (.upgrade .tokenV2Wrong .tokenV2) =
          l.run [.mint 0xd0 0xd0 5] := by
  have htest : passes (deploy .tokenV1 .tokenV1 0xd0) (fun l =>
      decide (l.bindings.balances = 1 ∧ l.bindings.roles = 3) &&
        passes ((l.run [.mint 0xd0 0xd0 5]).upgrade reservingSchema .tokenV2) (fun p =>
          decide (p.1.balanceOf 0xd0 = 5 ∧ p.2.appendedFields.length = 2 ∧
            ∀ f ∈ p.2.appendedFields, f.EndsInRange)) &&
        !passes ((l.run [.mint 0xd0 0xd0 5]).upgrade .tokenV2Wrong .tokenV2) fun _ => true) =
      true := by
    decide +kernel
  obtain ⟨l, hdeployed, htest⟩ := exists_of_passes htest
  simp only [Bool.and_eq_true, decide_eq_true_eq, Bool.not_eq_true'] at htest
  obtain ⟨⟨⟨hbalances, hroles⟩, haccepted⟩, hrefused⟩ := htest
  have hhigh := (Bindings.cells_of_token hbalances hroles).2
  refine ⟨l, .inl hdeployed, hhigh, ?_, ?_⟩
  · obtain ⟨⟨m, r⟩, hupgrade, htest⟩ := exists_of_passes haccepted
    obtain ⟨hbalance, hlength, hends⟩ := of_decide_eq_true htest
    obtain ⟨-, -, htakesOver⟩ :=
      (upgrade_preserves_run (.inl hdeployed) [.mint 0xd0 0xd0 5] hhigh _ _).1 m r hupgrade
    exact ⟨m, r, hupgrade, hbalance, hlength, htakesOver.mpr fun f hf _ => .inl (hends f hf)⟩
  · cases hupgrade : (l.run [.mint 0xd0 0xd0 5]).upgrade .tokenV2Wrong .tokenV2 with
    | ok p =>
      rw [hupgrade] at hrefused
      cases hrefused
    | error e =>
      exact ⟨e, rfl,
        (upgrade_preserves_run (.inl hdeployed) [.mint 0xd0 0xd0 5] hhigh _ _).2 e hupgrade⟩

/-- The first layout of the token with the supply at the greatest position. -/
def supplyAtLast : Schema :=
  ⟨"LastSlot", 1, [.ofType FieldName.initialized .uint8 0,
    .ofType FieldName.balances balancesType 1, .ofType FieldName.roles rolesType 3,
    .ofType FieldName.totalSupply .uint256 0xffffffffffffffff]⟩

/-- The layout with the supply at the greatest position, and the audited counter there, too. -/
def counterAtLast : Schema :=
  ⟨"LastSlot", 2, supplyAtLast.fields ++
    [.ofType FieldName.totalAudited .uint256 0xffffffffffffffff]⟩

set_option maxRecDepth 100000 in
/-- A counter that does not end in range: no field has a slot past the greatest position, the
upgrade is accepted, and the counter starts at the supply. -/
theorem not_takesOver_counterAtLast :
    (∀ f ∈ counterAtLast.fields, f.slotIndex.toNat + f.slotSpan.toNat ≤ UInt64.size) ∧
      ∃ l, IsDeployed supplyAtLast .tokenV1 0xd0 l ∧
        ∃ m r, (l.run [.mint 0xd0 0xd0 5]).upgrade counterAtLast .tokenV2 = .ok (m, r) ∧
          m.totalAudited = some 5 ∧
          ∀ considered, ¬ (l.run [.mint 0xd0 0xd0 5]).TakesOver m r considered := by
  have htest : passes (deploy supplyAtLast .tokenV1 0xd0) (fun l =>
      passes ((l.run [.mint 0xd0 0xd0 5]).upgrade counterAtLast .tokenV2) fun p =>
        decide (((l.run [.mint 0xd0 0xd0 5]).schema.field? FieldName.totalAudited).isSome = false ∧
          (p.1.schema.field? FieldName.totalAudited).isSome = true ∧
          p.1.totalAudited = some 5)) = true := by
    decide +kernel
  obtain ⟨l, hdeployed, haccepted⟩ := exists_of_passes htest
  obtain ⟨⟨m, r⟩, hupgrade, htest⟩ := exists_of_passes haccepted
  obtain ⟨hbefore, hafter, haudited⟩ := of_decide_eq_true htest
  refine ⟨by decide +kernel, l, .inl hdeployed, m, r, hupgrade, haudited, ?_⟩
  intro considered htakesOver
  have hnew : ¬ (l.run [.mint 0xd0 0xd0 5]).HasCounter := by
    rw [HasCounter, hbefore]
    exact Bool.false_ne_true
  have hzero := htakesOver.newCounter hnew hafter
  rw [haudited] at hzero
  exact absurd hzero (by decide)

end Ledger

end SlotLedger
