import SlotLedger.Proofs.Ledger.Conservation

/-!
# Ledgers that can be restored

A ledger is restored from its parts if an upgradeable one has logic with an initializer, the schema
is valid, the logic binds to it and the storage is initialized.  The standard initializer leaves its
mark, and no call takes it away: logic writes the mark only to set it, the counter may share the
mark's slot but does not fall, and an upgrade zeroes no slot that the old layout used.  The supply
could share the slot too, but then the initializer would not conserve.

## Main definitions

* `Ledger.IsRestorable`: what restoring a ledger from its parts asks for
* `Ledger.IsMarked`: the mark of the initializer is there, in a slot that no cell has

## Main results

* `Ledger.restore_eq_ok_iff`: what is restored, and from which parts
* `Commits.marked`: a commit keeps the mark
* `Ledger.isMarked_after`, `Ledger.isMarked_run`: calls and runs keep it
* `Ledger.isRestorable_run`: every ledger that a run reaches can be restored
-/

namespace SlotLedger

/-! ## The mark -/

/-- A slot to which only other words than zero are written does not become zero. -/
theorem Transaction.load_applyAll_ne_zero (tx : Transaction) {edits : List Edit} {slot : Slot}
    (hwords : ∀ e ∈ edits, e.slot? tx.bindings = some slot → e.word ≠ 0)
    (hslot : tx.load slot ≠ 0) : (tx.applyAll edits).load slot ≠ 0 := by
  induction edits generalizing tx with
  | nil => exact hslot
  | cons e edits ih =>
    obtain ⟨he, hrest⟩ := List.forall_mem_cons.mp hwords
    rw [applyAll_cons]
    refine ih _ (by simpa using hrest) ?_
    rw [load_apply]
    split
    · exact he ‹_›
    · exact hslot

/-- A low slot is none of the cells of the accounts in question. -/
theorem Bindings.CellsHigh.cellSlot_ne {b : Bindings} {accounts : Set Account}
    (hhigh : b.CellsHigh accounts) {c : Cell} (hc : c.account ∈ accounts) {slot : Slot}
    (hslot : slot.toNat < UInt64.size) : b.cellSlot c ≠ slot := by
  rintro rfl
  exact absurd hslot (Nat.not_lt.mpr (hhigh c hc))

namespace Commits

variable {b : Bindings} {before after : Storage} {edits : List Edit}

/-- **A commit keeps the mark** of the initializer, if the supply has a slot of its own. -/
theorem marked (h : Commits b before edits after) {accounts : Set Account} (hlow : b.IsLow)
    (hhigh : b.CellsHigh accounts) (hwritten : ∀ c ∈ writtenCells edits, c.account ∈ accounts)
    (hapart : b.initialized ≠ b.totalSupply) (hmarked : before.load b.initialized ≠ 0) :
    after.load b.initialized ≠ 0 := by
  by_cases haudited : b.totalAudited = some b.initialized
  · -- The counter shares the slot, and it does not fall.
    have hread : ∀ s : Storage, (View.mk b s.load).totalAudited = some (s.load b.initialized) := by
      intro s
      rw [View.totalAudited, haudited]
      rfl
    have hle : before.load b.initialized ≤ after.load b.initialized :=
      h.audited_le _ (hread before) _ (hread after)
    intro hzero
    rw [hzero] at hle
    exact hmarked (BitVec.le_zero_iff.mp hle)
  · -- Nothing else is written there but the mark itself.
    rw [h.load_eq]
    refine Transaction.load_applyAll_ne_zero _ (fun e he hslot => ?_) hmarked
    have hcell : ∀ c, e.cell? = some c → b.cellSlot c ≠ b.initialized := fun c hc =>
      hhigh.cellSlot_ne (hwritten c (mem_writtenCells_of_cell? he hc)) hlow.initialized
    have hslot : e.slot? b = some b.initialized := hslot
    cases e with
    | balance account value =>
      exact absurd (Option.some.inj hslot) (hcell (.balance account) rfl)
    | role r account member =>
      exact absurd (Option.some.inj hslot) (hcell (.member r account) rfl)
    | totalSupply value => exact absurd (Option.some.inj hslot).symm hapart
    | totalAudited value => exact absurd hslot haudited
    | initialized =>
      rw [Edit.word]
      decide

end Commits

namespace Ledger

/-- The ledger is bound and initialized, the supply has another slot than the mark of the
initializer, and so have the cells of the accounts in question. -/
structure IsMarked (l : Ledger) (accounts : Set Account) : Prop where
  isBound : l.IsBound
  high : l.bindings.CellsHigh accounts
  apart : l.bindings.initialized ≠ l.bindings.totalSupply
  marked : l.storage.load l.bindings.initialized ≠ 0

/-! ## Deployments -/

section Deployed

variable {schema : Schema} {logic : Logic} {deployer : Account} {l : Ledger}
  (hdeployed : IsDeployed schema logic deployer l)

include hdeployed

theorem logic_of_isDeployed : l.logic = logic := by
  obtain ⟨upgradeable, hfound⟩ := found_of_isDeployed hdeployed
  obtain ⟨-, b, -, -, -, hl⟩ := found_eq_ok_iff.mp hfound
  rw [hl]

theorem upgradeSafe_of_isDeployed (hupgradeable : l.upgradeable = true) :
    l.logic.initialization = .initializer := by
  rcases hdeployed with hdeployed | hfixed
  · rw [logic_of_isDeployed (.inl hdeployed)]
    exact requireUpgradeSafe_eq_ok_iff.mp (seq_eq_ok_iff.mp hdeployed).1
  · obtain ⟨-, b, -, -, -, hl⟩ := found_eq_ok_iff.mp hfixed
    rw [hl] at hupgradeable
    cases hupgradeable

variable (hsetUp : logic.setUp = Logic.standardSetUp)

include hsetUp

/-- The standard initializer sets the mark and makes the deployer admin and minter. -/
theorem setUpEdits_of_isDeployed : l.setUpEdits deployer =
    [.initialized, .role .defaultAdmin deployer true, .role .minter deployer true] := by
  rw [setUpEdits, logic_of_isDeployed hdeployed, hsetUp]
  rfl

/-- **The standard initializer leaves its mark**, and the gate sees that the supply has another
slot. -/
theorem isMarked_of_isDeployed {accounts : Set Account} (hhigh : l.bindings.CellsHigh accounts)
    (hwritten : ∀ w ∈ writtenCells (l.setUpEdits deployer), w.account ∈ accounts) :
    l.IsMarked accounts := by
  have hbound := hdeployed.isBound
  have hlow := Logic.isLow_of_bind hbound.bound
  have hcommits := hdeployed.commits
  rw [setUpEdits_of_isDeployed hdeployed hsetUp] at hwritten hcommits
  have hdeployer : deployer ∈ accounts :=
    hwritten (.member .defaultAdmin deployer) List.mem_cons_self
  -- The memberships are written after the mark, and not over it.
  have hmark : l.storage.load l.bindings.initialized = 1 := by
    have hadmin := hhigh.cellSlot_ne (c := .member .defaultAdmin deployer) hdeployer
      hlow.initialized
    have hminter := hhigh.cellSlot_ne (c := .member .minter deployer) hdeployer hlow.initialized
    have hlater : ∀ e ∈ [Edit.role .defaultAdmin deployer true, .role .minter deployer true],
        e.slot? l.bindings ≠ some l.bindings.initialized := by
      intro e he hslot
      simp only [List.mem_cons, List.not_mem_nil, or_false] at he
      rcases he with rfl | rfl
      · exact hadmin (Option.some.inj hslot)
      · exact hminter (Option.some.inj hslot)
    rw [hcommits.load_eq, Transaction.applyAll_cons, Transaction.load_applyAll_of_forall_ne
      ((Transaction.start .empty l.bindings).apply .initialized) hlater, Transaction.load_apply]
    exact if_pos rfl
  -- No balance was written, so the supply that the gate reads is zero.
  have hsupply : l.storage.load l.bindings.totalSupply = 0 := by
    have hnone : ∀ a, a ∈ (∅ : Finset Account) ↔ Cell.balance a ∈ writtenCells
        [.initialized, .role .defaultAdmin deployer true, .role .minter deployer true] := by
      intro a
      simp [writtenCells, Edit.cell?]
    have hbalanced := (Transaction.validate_eq_ok_iff.mp hcommits.accepted).1
    rw [Transaction.IsBalanced, Transaction.totalBefore_eq_sum hnone,
      Transaction.totalAfter_eq_sum hnone, ← hcommits.view_eq, Transaction.committed_applyAll,
      Finset.sum_empty, Finset.sum_empty, Nat.zero_add, Nat.zero_add] at hbalanced
    exact BitVec.eq_of_toNat_eq hbalanced
  refine ⟨hbound, hhigh, fun heq => ?_, by rw [hmark]; decide⟩
  rw [← heq, hmark] at hsupply
  exact absurd hsupply (by decide)

end Deployed

/-! ## Calls and runs -/

/-- **One call keeps the mark.** -/
theorem isMarked_after {l : Ledger} {accounts : Set Account} (hl : l.IsMarked accounts) {c : Call}
    (hwritten : ∀ w ∈ writtenCells (l.callEdits c), w.account ∈ accounts) :
    (l.after c).IsMarked accounts := by
  have hhigh : (l.after c).bindings.CellsHigh accounts := by
    rw [Bindings.CellsHigh, (rebinds_after hl.isBound c).cellSlot_eq]
    exact hl.high
  have hlow := Logic.isLow_of_bind hl.isBound.bound
  -- A commit keeps the slots and the word, and an upgrade carries both over.
  refine ⟨isBound_after hl.isBound c, hhigh, ?_, ?_⟩ <;>
    rcases l.after_cases c with ⟨hcommits, hm⟩ | ⟨schema, logic, r, -, hupgrade⟩ | ⟨hm, -⟩
  · rw [hm]
    exact hl.apart
  · have hrebinds := rebinds_upgrade hl.isBound hupgrade
    rw [hrebinds.initialized, hrebinds.totalSupply]
    exact hl.apart
  · rw [hm]
    exact hl.apart
  · have hslot : (l.after c).bindings.initialized = l.bindings.initialized := by rw [hm]
    rw [hslot]
    exact hcommits.marked hlow hl.high hwritten hl.apart hl.marked
  · rw [(rebinds_upgrade hl.isBound hupgrade).initialized]
    obtain ⟨⟨-, -, hallowed, -⟩, b, -, hm, -⟩ := upgrade_eq_ok_iff.mp hupgrade
    obtain ⟨⟨hinitialized, -⟩, -⟩ := Logic.bind_eq_ok_iff.mp hl.isBound.bound
    rw [hm, upgraded, load_clearAppended_of_slotOf l.storage hallowed hinitialized]
    exact hl.marked
  · rw [hm]
    exact hl.marked

/-- **A run keeps the mark.** -/
theorem isMarked_run {l : Ledger} {accounts : Set Account} (hl : l.IsMarked accounts)
    {calls : List Call} (hwritten : ∀ w ∈ writtenCells (l.runEdits calls), w.account ∈ accounts) :
    (l.run calls).IsMarked accounts := by
  induction calls generalizing l with
  | nil => exact hl
  | cons c calls ih =>
    simp only [runEdits, writtenCells_append, List.mem_append] at hwritten
    exact ih (isMarked_after hl fun w hw => hwritten w (.inl hw)) fun w hw => hwritten w (.inr hw)

/-- Only logic with an initializer comes behind an upgradeable ledger. -/
theorem upgradeSafe_after {l : Ledger}
    (hl : l.upgradeable = true → l.logic.initialization = .initializer) (c : Call)
    (hupgradeable : (l.after c).upgradeable = true) :
    (l.after c).logic.initialization = .initializer := by
  rcases l.after_cases c with ⟨-, hm⟩ | ⟨schema, logic, r, -, hupgrade⟩ | ⟨hm, -⟩
  · rw [hm] at hupgradeable ⊢
    exact hl hupgradeable
  · obtain ⟨⟨-, hinitializer, -⟩, b, -, hm, -⟩ := upgrade_eq_ok_iff.mp hupgrade
    rw [hm]
    exact hinitializer
  · rw [hm] at hupgradeable ⊢
    exact hl hupgradeable

theorem upgradeSafe_run {l : Ledger}
    (hl : l.upgradeable = true → l.logic.initialization = .initializer) (calls : List Call) :
    (l.run calls).upgradeable = true → (l.run calls).logic.initialization = .initializer :=
  run_induction (P := fun m => m.upgradeable = true → m.logic.initialization = .initializer)
    (fun _ c hm => upgradeSafe_after hm c) hl calls

/-! ## Restoring -/

/-- What restoring a ledger from its parts asks for, and its bindings are those that it gives. -/
structure IsRestorable (l : Ledger) : Prop where
  isBound : l.IsBound
  upgradeSafe : l.upgradeable = true → l.logic.initialization = .initializer
  initialized : l.view.isInitialized = true

/-- A bound ledger behind which only upgrade-safe logic comes is restored from its parts exactly if
its storage is initialized. -/
theorem restore_snapshot_eq_ite {l : Ledger} (hl : l.IsBound)
    (hsafe : l.upgradeable = true → l.logic.initialization = .initializer) :
    restore l.snapshot =
      if l.view.isInitialized then .ok l
      else .error (.initialization (.invariantViolation (.initialized l.schema.name))) := by
  have hupgradeSafe : l.upgradeable = true → requireUpgradeSafe l.logic = .ok () :=
    fun hupgradeable => requireUpgradeSafe_eq_ok_iff.mpr (hsafe hupgradeable)
  rw [restore, snapshot]
  dsimp only
  rw [hl.valid, hl.bound]
  split
  · rename_i hupgradeable
    rw [hupgradeSafe hupgradeable]
    rfl
  · rfl

/-- **A restorable ledger is restored from its parts.** -/
theorem restore_snapshot {l : Ledger} (h : l.IsRestorable) : restore l.snapshot = .ok l := by
  rw [restore_snapshot_eq_ite h.isBound h.upgradeSafe, if_pos h.initialized]

/-- **What is restored** is restorable and has the parts given. -/
theorem restore_eq_ok_iff {parts : LedgerParts} {l : Ledger} :
    restore parts = .ok l ↔ l.snapshot = parts ∧ l.IsRestorable := by
  constructor
  · intro h
    rw [restore] at h
    -- Parts that can be upgraded are checked for their logic first, and all then alike.
    have hchecked : (parts.upgradeable = true → parts.logic.initialization = .initializer) ∧
        (parts.schema.validate.mapError UpgradeError.schema >>= fun _ =>
          (parts.logic.bind parts.schema).mapError UpgradeError.schema >>= fun b =>
            if (View.mk b parts.storage.load).isInitialized then
              Except.ok (⟨parts.schema, parts.logic, b, parts.storage, parts.history,
                parts.upgradeable⟩ : Ledger)
            else
              .error (UpgradeError.initialization
                (.invariantViolation (.initialized parts.schema.name)))) = .ok l := by
      split at h
      · obtain ⟨hsafe, hrest⟩ := seq_eq_ok_iff.mp h
        exact ⟨fun _ => requireUpgradeSafe_eq_ok_iff.mp hsafe, hrest⟩
      · exact ⟨fun hupgradeable => absurd hupgradeable ‹_›, h⟩
    obtain ⟨hsafe, hrest⟩ := hchecked
    obtain ⟨hvalid, hrest⟩ := seq_eq_ok_iff.mp hrest
    obtain ⟨b, hbind, hrest⟩ := bind_eq_ok_iff.mp hrest
    split at hrest
    · cases hrest
      exact ⟨rfl, ⟨mapError_eq_ok_iff.mp hvalid, mapError_eq_ok_iff.mp hbind⟩, hsafe, ‹_›⟩
    · cases hrest
  · rintro ⟨rfl, h⟩
    exact restore_snapshot h

/-- **Every ledger that a run reaches can be restored**, if its first logic had the standard
initializer.  Of the hash it is assumed that the cells that were written are no low slots. -/
theorem isRestorable_run {schema : Schema} {logic : Logic} {deployer : Account} {l : Ledger}
    (hdeployed : IsDeployed schema logic deployer l) (hsetUp : logic.setUp = Logic.standardSetUp)
    (calls : List Call) {considered : Set Account} (hhigh : l.bindings.CellsHigh considered)
    (hset : ∀ w ∈ writtenCells (l.setUpEdits deployer), w.account ∈ considered)
    (hwritten : ∀ w ∈ writtenCells (l.runEdits calls), w.account ∈ considered) :
    (l.run calls).IsRestorable := by
  have hmarked : (l.run calls).IsMarked considered :=
    isMarked_run (isMarked_of_isDeployed hdeployed hsetUp hhigh hset) hwritten
  have hsafe := upgradeSafe_run (upgradeSafe_of_isDeployed hdeployed) calls
  exact ⟨hmarked.isBound, hsafe, bne_iff_ne.mpr hmarked.marked⟩

end Ledger

end SlotLedger
