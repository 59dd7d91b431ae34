import SlotLedger.Proofs.Layout.Slots
import SlotLedger.Proofs.Ledger.Restorable

/-!
# How ledgers are represented

A ledger is deployed or restored from parts, and then goes through calls.  All along its schema is
valid, its bindings are those of its logic in the schema, the counter is bound exactly for logic
that keeps it, and an upgradeable ledger has logic with an initializer.  So it is restored from its
own parts exactly if its storage is initialized.

The mark of the initializer outlasts every call in a slot of its own.  Validation lets two fields
start at the greatest position, where ends are held back, and one slot may be both the mark and the
supply.  The standard initializer would not conserve on such a layout, so no deployment has one; but
a ledger can be restored around it, and there the mark is gone once the supply is.

## Main definitions

* `Ledger.ComesAbout`: the ledger is deployed or restored
* `Ledger.IsCoherent`: what its parts have to do with each other

## Main results

* `Ledger.isCoherent_run`: ledgers are coherent
* `Ledger.toNat_totalSupply_of_shared`: mark and supply share no slot but the last
* `Ledger.isInitialized_run_iff`: what becomes of the mark
* `Ledger.restore_snapshot_run`: when a ledger is restored from its parts
-/

namespace SlotLedger.Ledger

/-! ## Coherent ledgers -/

/-- The ledger is deployed, with or without upgrade support, or restored from parts. -/
inductive ComesAbout (l : Ledger) : Prop where
  | deployed {schema : Schema} {logic : Logic} {deployer : Account} :
    IsDeployed schema logic deployer l → ComesAbout l
  | restored {parts : LedgerParts} : restore parts = .ok l → ComesAbout l

/-- What the parts of a ledger have to do with each other. -/
structure IsCoherent (l : Ledger) : Prop extends l.IsBound where
  counter : l.bindings.totalAudited.isSome = l.logic.enforcesAuditCap
  upgradeSafe : l.upgradeable = true → l.logic.initialization = .initializer
  nonzero : ∀ w ∈ l.storage.words, w.value ≠ 0

theorem ComesAbout.isBound {l : Ledger} (h : l.ComesAbout) : l.IsBound := by
  cases h with
  | deployed hdeployed => exact hdeployed.isBound
  | restored hrestored => exact (restore_eq_ok_iff.mp hrestored).2.isBound

theorem ComesAbout.upgradeSafe {l : Ledger} (h : l.ComesAbout) :
    l.upgradeable = true → l.logic.initialization = .initializer := by
  cases h with
  | deployed hdeployed => exact upgradeSafe_of_isDeployed hdeployed
  | restored hrestored => exact (restore_eq_ok_iff.mp hrestored).2.upgradeSafe

/-- The counter is bound exactly for logic that keeps it. -/
theorem isSome_totalAudited {l : Ledger} (hl : l.IsBound) :
    l.bindings.totalAudited.isSome = l.logic.enforcesAuditCap := by
  rcases (Logic.bind_eq_ok_iff.mp hl.bound).2 with ⟨hcap, slot, hslot, -⟩ | ⟨hcap, hnone, -⟩
  · rw [hslot, hcap]
    rfl
  · rw [hnone, hcap]
    rfl

/-- **Ledgers are coherent**, however they came about and whatever they went through. -/
theorem isCoherent_run {l : Ledger} (h : l.ComesAbout) (calls : List Call) :
    (l.run calls).IsCoherent where
  toIsBound := isBound_run h.isBound calls
  counter := isSome_totalAudited (isBound_run h.isBound calls)
  upgradeSafe := upgradeSafe_run h.upgradeSafe calls
  nonzero := by
    intro w hw
    obtain ⟨e, he, rfl⟩ := List.mem_map.mp hw
    exact (l.run calls).storage.nonzero e he

/-! ## The mark and the supply -/

/-- **Mark and supply share no slot but the last**: they are different fields of a valid layout. -/
theorem toNat_totalSupply_of_shared {l : Ledger} (hl : l.IsBound)
    (hshared : l.bindings.initialized = l.bindings.totalSupply) :
    l.bindings.totalSupply.toNat = UInt64.size - 1 := by
  obtain ⟨⟨hmark, -, hsupply, -⟩, -⟩ := Logic.bind_eq_ok_iff.mp hl.bound
  obtain ⟨f, hf, -, hfslot⟩ := Bindings.slotOf_eq_ok_iff.mp hmark
  obtain ⟨g, hg, -, hgslot⟩ := Bindings.slotOf_eq_ok_iff.mp hsupply
  obtain ⟨hfmem, hfname⟩ := Schema.mem_of_field?_eq_some hf
  obtain ⟨hgmem, hgname⟩ := Schema.mem_of_field?_eq_some hg
  -- They have different names, so two fields start at one position.
  have hne : f ≠ g := by
    rintro rfl
    rw [hfname] at hgname
    exact absurd hgname (by decide)
  have hposition : f.slotIndex = g.slotIndex := by
    apply UInt64.toNat_inj.mp
    rw [← SlotIndex.toNat_slot, ← SlotIndex.toNat_slot, ← hfslot, ← hgslot, hshared]
  rw [← hshared, hfslot, SlotIndex.toNat_slot]
  exact Schema.toNat_slotIndex_of_shared hl.valid hfmem hgmem hne hposition

/-- **What becomes of the mark** of an initialized ledger: it stays where the supply has another
slot, and else goes with the supply. -/
theorem isInitialized_run_iff {l : Ledger} (hl : l.IsRestorable) {calls : List Call}
    {accounts : Set Account} (hhigh : l.bindings.CellsHigh accounts)
    (hwritten : ∀ w ∈ writtenCells (l.runEdits calls), w.account ∈ accounts) :
    (l.run calls).view.isInitialized = true ↔
      l.bindings.initialized ≠ l.bindings.totalSupply ∨ (l.run calls).totalSupply ≠ 0 := by
  by_cases hshared : l.bindings.initialized = l.bindings.totalSupply
  · -- Mark and supply are one word, before the run and after it.
    have hrebinds := rebinds_run hl.isBound calls
    have hread : (l.run calls).view.isInitialized = ((l.run calls).totalSupply != 0) := by
      rw [View.isInitialized, view, hrebinds.initialized, hshared, ← hrebinds.totalSupply]
      rfl
    rw [hread, bne_iff_ne]
    exact (or_iff_right (not_not.mpr hshared)).symm
  · have hmarked : l.IsMarked accounts :=
      ⟨hl.isBound, hhigh, hshared, bne_iff_ne.mp hl.initialized⟩
    have hkept := (isMarked_run hmarked hwritten).marked
    exact iff_of_true (bne_iff_ne.mpr hkept) (.inl hshared)

/-- **When a ledger is restored from its parts.**  Every ledger that calls under any logic lead to is
coherent.  If it was deployed with the standard initializer, its parts give it again.  If it was
restored itself, they do exactly while the supply has another slot than the mark or is not zero, and
the two share no slot but the last.  Of the hash it is assumed that the cells that were written are
no low slots. -/
theorem restore_snapshot_run {l : Ledger} (h : l.ComesAbout) (calls : List Call)
    {considered : Set Account} (hhigh : l.bindings.CellsHigh considered)
    (hwritten : ∀ w ∈ writtenCells (l.runEdits calls), w.account ∈ considered) :
    (l.run calls).IsCoherent ∧
      (∀ schema logic deployer, IsDeployed schema logic deployer l →
        logic.setUp = Logic.standardSetUp →
          (∀ w ∈ writtenCells (l.setUpEdits deployer), w.account ∈ considered) →
            (l.run calls).view.isInitialized = true ∧
              restore (l.run calls).snapshot = .ok (l.run calls)) ∧
      ∀ parts, restore parts = .ok l →
        ((l.run calls).view.isInitialized = true ↔
          l.bindings.initialized ≠ l.bindings.totalSupply ∨ (l.run calls).totalSupply ≠ 0) ∧
        (l.bindings.initialized = l.bindings.totalSupply →
          l.bindings.totalSupply.toNat = UInt64.size - 1) ∧
        restore (l.run calls).snapshot =
          if (l.run calls).view.isInitialized then .ok (l.run calls)
          else .error (.initialization (.invariantViolation
            (.initialized (l.run calls).schema.name))) := by
  have hcoherent := isCoherent_run h calls
  refine ⟨hcoherent, ?_, ?_⟩
  · intro schema logic deployer hdeployed hsetUp hset
    have hrestorable := isRestorable_run hdeployed hsetUp calls hhigh hset hwritten
    exact ⟨hrestorable.initialized, restore_snapshot hrestorable⟩
  · intro parts hrestored
    have hrestorable := (restore_eq_ok_iff.mp hrestored).2
    exact ⟨isInitialized_run_iff hrestorable hhigh hwritten, toNat_totalSupply_of_shared h.isBound,
      restore_snapshot_eq_ite hcoherent.toIsBound hcoherent.upgradeSafe⟩

/-! ## A supply in the place of the mark -/

/-- A layout with the mark and the supply at the greatest position. -/
def lastSlotShared : Schema :=
  ⟨"LastSlot", 9, [.ofType FieldName.balances balancesType 1, .ofType FieldName.roles rolesType 3,
    .ofType FieldName.totalAudited .uint256 4,
    .ofType FieldName.initialized .uint8 0xffffffffffffffff,
    .ofType FieldName.totalSupply .uint256 0xffffffffffffffff]⟩

/-- The caller loses an amount that nobody receives. -/
def burn (caller _receiver : Account) (amount : Amount) : Stage Unit := do
  let balance ← Stage.read (·.balanceOf caller)
  let left ← Stage.amount (Amount.checkedSub balance amount)
  Stage.edit (.balance caller left)
  let supply ← Stage.read View.totalSupply
  let rest ← Stage.amount (Amount.checkedSub supply amount)
  Stage.edit (.totalSupply rest)

/-- A balance of one and a supply of one, which reads as the mark too; transfers burn. -/
def lastUnit : LedgerParts where
  schema := lastSlotShared
  logic := { Logic.tokenV2 with transfer := burn }
  storage := (Storage.empty.store (mappingSlot 1 (Account.key 0xd0)) 1).store 0xffffffffffffffff 1
  history := []
  upgradeable := true

/-- The upgrade of a first version to the second. -/
def toSecondVersion : List Call := [.upgrade .tokenV2 .tokenV2]

set_option maxRecDepth 100000 in
/-- The last unit is burnt, and what is left cannot be restored; a deployed ledger can, after
an upgrade. -/
theorem restore_snapshot_run_lastUnit :
    (∃ l, restore lastUnit = .ok l ∧ (l.run [.transfer 0xd0 0xb0 1]).IsCoherent ∧
      l.bindings.totalSupply.toNat = UInt64.size - 1 ∧
      (l.run [.transfer 0xd0 0xb0 1]).view.isInitialized = false ∧
      restore (l.run [.transfer 0xd0 0xb0 1]).snapshot =
        .error (.initialization (.invariantViolation (.initialized "LastSlot")))) ∧
    ∃ l, IsDeployed .tokenV1 .tokenV1 0xd0 l ∧ (l.run toSecondVersion).history.length = 1 ∧
      (l.run toSecondVersion).view.isInitialized = true ∧
      restore (l.run toSecondVersion).snapshot = .ok (l.run toSecondVersion) := by
  constructor
  · have htest : passes (restore lastUnit) (fun l => decide
        ((l.bindings.balances = 1 ∧ l.bindings.roles = 3) ∧
          l.bindings.initialized = l.bindings.totalSupply ∧
          (∀ w ∈ writtenCells (l.runEdits [.transfer 0xd0 0xb0 1]), w.account ∈ [0xd0, 0xb0]) ∧
          (l.run [.transfer 0xd0 0xb0 1]).totalSupply = 0 ∧
          (l.run [.transfer 0xd0 0xb0 1]).schema.name = "LastSlot")) = true := by
      decide +kernel
    obtain ⟨l, hrestored, htest⟩ := exists_of_passes htest
    obtain ⟨⟨hbalances, hroles⟩, hshared, hwritten, hsupply, hname⟩ := of_decide_eq_true htest
    have hhigh := (Bindings.cells_of_token hbalances hroles).2
    obtain ⟨hcoherent, -, hfrom⟩ := restore_snapshot_run (.restored hrestored)
      [.transfer 0xd0 0xb0 1] hhigh hwritten
    obtain ⟨hmark, hlast, hrestore⟩ := hfrom lastUnit hrestored
    have hgone : (l.run [.transfer 0xd0 0xb0 1]).view.isInitialized = false := by
      rw [Bool.eq_false_iff, ne_eq, hmark]
      exact not_or.mpr ⟨not_not.mpr hshared, not_not.mpr hsupply⟩
    rw [hgone, hname] at hrestore
    exact ⟨l, hrestored, hcoherent, hlast hshared, hgone, hrestore⟩
  · have htest : passes (deploy .tokenV1 .tokenV1 0xd0) (fun l => decide
        ((l.bindings.balances = 1 ∧ l.bindings.roles = 3) ∧
          (∀ w ∈ writtenCells (l.setUpEdits 0xd0), w.account ∈ [0xd0, 0xb0]) ∧
          (∀ w ∈ writtenCells (l.runEdits toSecondVersion), w.account ∈ [0xd0, 0xb0]) ∧
          (l.run toSecondVersion).history.length = 1)) = true := by
      decide +kernel
    obtain ⟨l, hdeployed, htest⟩ := exists_of_passes htest
    obtain ⟨⟨hbalances, hroles⟩, hset, hwritten, hhistory⟩ := of_decide_eq_true htest
    have hhigh := (Bindings.cells_of_token hbalances hroles).2
    obtain ⟨-, hfrom, -⟩ := restore_snapshot_run (.deployed (.inl hdeployed)) toSecondVersion
      hhigh hwritten
    obtain ⟨hmark, hrestore⟩ := hfrom .tokenV1 .tokenV1 0xd0 (.inl hdeployed) rfl hset
    exact ⟨l, .inl hdeployed, hhistory, hmark, hrestore⟩

end SlotLedger.Ledger
