import SlotLedger.Proofs.Ledger.Upgrade

/-!
# Conservation of the supply

The gate compares what one transaction moved: the balances of the accounts it wrote before and
after, and the supply before and after.  Over whole runs this makes the supply the sum of all
balances.  The sum is taken over any finite set of accounts that holds every account whose balance
was written; an account outside of it never had a balance.

## Main definitions

* `Ledger.KeepsApart`: a bound ledger in which the hash keeps the cells of some accounts apart
* `Ledger.Conserves`: the supply is the sum of the balances of a set of accounts

## Main results

* `Commits.sum_balances`: a commit moves the balances by as much as the supply
* `Ledger.cell_after`, `Ledger.cell_run`: cells that are not written keep their words
* `Ledger.conserves_after`, `Ledger.conserves_run`: calls and runs conserve
* `Ledger.totalSupply_run_eq_sum`: the supply of every ledger that a run reaches
-/

namespace SlotLedger

/-! ## One commit -/

namespace Commits

variable {b : Bindings} {before after : Storage} {edits : List Edit}

/-- **A commit moves the balances by as much as the supply.** -/
theorem sum_balances (h : Commits b before edits after) {accounts : Set Account}
    (hb : b.CellsApart accounts) (hwritten : ∀ c ∈ writtenCells edits, c.account ∈ accounts)
    {carrier : Finset Account} (hcarrier : ↑carrier ⊆ accounts)
    (hcovers : ∀ a, .balance a ∈ writtenCells edits → a ∈ carrier) :
    ∑ a ∈ carrier, ((View.mk b before.load).balanceOf a).toNat +
        (View.mk b after.load).totalSupply.toNat =
      ∑ a ∈ carrier, ((View.mk b after.load).balanceOf a).toNat +
        (View.mk b before.load).totalSupply.toNat := by
  set written := ((Transaction.start before b).applyAll edits).balancesBefore.keys.toFinset
  have hmem : ∀ a, a ∈ written ↔ .balance a ∈ writtenCells edits := fun a =>
    List.mem_toFinset.trans (Transaction.mem_keys_balancesBefore before b edits)
  -- The gate adds up the accounts written, each of them once.
  have hbalanced := (Transaction.validate_eq_ok_iff.mp h.accepted).1
  rw [Transaction.IsBalanced, Transaction.totalBefore_eq_sum hmem,
    Transaction.totalAfter_eq_sum hmem, ← h.view_eq, Transaction.committed_applyAll] at hbalanced
  -- The others keep their balances.
  have hsub : written ⊆ carrier := fun a ha => hcovers a ((hmem a).mp ha)
  have hothers : ∑ a ∈ carrier \ written, ((View.mk b before.load).balanceOf a).toNat =
      ∑ a ∈ carrier \ written, ((View.mk b after.load).balanceOf a).toNat := by
    refine Finset.sum_congr rfl fun a ha => ?_
    obtain ⟨ha, hfresh⟩ := Finset.mem_sdiff.mp ha
    have hkept := h.load_cellSlot hb hwritten (c := .balance a) (hcarrier ha)
      fun hw => hfresh ((hmem a).mpr hw)
    exact congrArg BitVec.toNat hkept.symm
  rw [← Finset.sum_sdiff hsub, ← Finset.sum_sdiff hsub (f := fun a =>
    ((View.mk b after.load).balanceOf a).toNat), hothers]
  have hcommitted : (Transaction.start before b).committed = View.mk b before.load := rfl
  rw [hcommitted] at hbalanced
  omega

end Commits

namespace Ledger

/-! ## One call -/

/-- The ledger is bound, and the hash keeps the cells of the accounts in question apart from each
other and from the low slots. -/
structure KeepsApart (l : Ledger) (accounts : Set Account) : Prop where
  isBound : l.IsBound
  distinct : l.bindings.CellsDistinct accounts
  high : l.bindings.CellsHigh accounts

theorem KeepsApart.cells {l : Ledger} {accounts : Set Account} (hl : l.KeepsApart accounts) :
    l.bindings.CellsApart accounts :=
  ⟨Logic.isLow_of_bind hl.isBound.bound, hl.distinct, hl.high⟩

/-- The supply is the sum of the balances of the given accounts. -/
def Conserves (l : Ledger) (carrier : Finset Account) : Prop :=
  l.totalSupply.toNat = ∑ a ∈ carrier, (l.balanceOf a).toNat

theorem keepsApart_after {l : Ledger} {accounts : Set Account} (hl : l.KeepsApart accounts)
    (c : Call) : (l.after c).KeepsApart accounts := by
  have hcells := (rebinds_after hl.isBound c).cellSlot_eq
  refine ⟨isBound_after hl.isBound c, ?_, ?_⟩
  · rw [Bindings.CellsDistinct, hcells]
    exact hl.distinct
  · rw [Bindings.CellsHigh, hcells]
    exact hl.high

theorem keepsApart_run {l : Ledger} {accounts : Set Account} (hl : l.KeepsApart accounts)
    (calls : List Call) : (l.run calls).KeepsApart accounts :=
  run_induction (P := (KeepsApart · accounts)) (fun _ c hl => keepsApart_after hl c) hl calls

section Call

variable {l : Ledger} {accounts : Set Account} (hl : l.KeepsApart accounts) {c : Call}
  (hwritten : ∀ w ∈ writtenCells (l.callEdits c), w.account ∈ accounts)

include hl hwritten

/-- A cell that the call does not write keeps its word. -/
theorem cell_after {w : Cell} (hw : w.account ∈ accounts)
    (hfresh : w ∉ writtenCells (l.callEdits c)) : (l.after c).cell w = l.cell w := by
  rcases l.after_cases c with ⟨hcommits, hm⟩ | ⟨schema, logic, r, -, hupgrade⟩ | ⟨hm, -⟩
  · rw [cell, (rebinds_after hl.isBound c).cellSlot_eq]
    exact hcommits.load_cellSlot hl.cells hwritten hw hfresh
  · exact cell_upgrade hl.isBound hupgrade (hl.high w hw)
  · rw [hm]

/-- **One call conserves.** -/
theorem conserves_after {carrier : Finset Account} (hcarrier : ↑carrier ⊆ accounts)
    (hcovers : ∀ a, .balance a ∈ writtenCells (l.callEdits c) → a ∈ carrier)
    (hconserves : l.Conserves carrier) : (l.after c).Conserves carrier := by
  rcases l.after_cases c with ⟨hcommits, hm⟩ | ⟨schema, logic, r, -, hupgrade⟩ | ⟨hm, -⟩
  · -- The gate has seen to it that the balances move as the supply does.
    have hsum := hcommits.sum_balances hl.cells hwritten hcarrier hcovers
    unfold Conserves totalSupply balanceOf at *
    rw [view_after hm]
    rw [view] at hconserves
    omega
  · rw [Conserves, totalSupply_upgrade hl.isBound hupgrade, hconserves]
    refine Finset.sum_congr rfl fun a ha => ?_
    have hkept : (l.after c).cell (.balance a) = l.cell (.balance a) :=
      cell_upgrade hl.isBound hupgrade (hl.high (.balance a) (hcarrier ha))
    rw [balanceOf_eq_cell, balanceOf_eq_cell, hkept]
  · rwa [hm]

end Call

/-! ## Runs -/

section Run

variable {l : Ledger} {accounts : Set Account} (hl : l.KeepsApart accounts) {calls : List Call}
  (hwritten : ∀ w ∈ writtenCells (l.runEdits calls), w.account ∈ accounts)

include hl hwritten

/-- A cell that a run does not write keeps its word. -/
theorem cell_run {w : Cell} (hw : w.account ∈ accounts)
    (hfresh : w ∉ writtenCells (l.runEdits calls)) : (l.run calls).cell w = l.cell w := by
  -- On the calls; what the rest of the run writes is written from the ledger after the first.
  induction calls generalizing l with
  | nil => rfl
  | cons c calls ih =>
    simp only [runEdits, writtenCells_append, List.mem_append, not_or] at hwritten hfresh
    rw [run_cons, ih (keepsApart_after hl c) (fun w hw => hwritten w (.inr hw)) hfresh.2]
    exact cell_after hl (fun w hw => hwritten w (.inl hw)) hw hfresh.1

/-- **Runs conserve.** -/
theorem conserves_run {carrier : Finset Account} (hcarrier : ↑carrier ⊆ accounts)
    (hcovers : ∀ a, .balance a ∈ writtenCells (l.runEdits calls) → a ∈ carrier)
    (hconserves : l.Conserves carrier) : (l.run calls).Conserves carrier := by
  induction calls generalizing l with
  | nil => exact hconserves
  | cons c calls ih =>
    simp only [runEdits, writtenCells_append, List.mem_append] at hwritten hcovers
    refine ih (keepsApart_after hl c) (fun w hw => hwritten w (.inr hw))
      (fun a ha => hcovers a (.inr ha)) ?_
    exact conserves_after hl (fun w hw => hwritten w (.inl hw)) hcarrier
      (fun a ha => hcovers a (.inl ha)) hconserves

end Run

/-! ## From the deployment on -/

section Deployed

variable {schema : Schema} {logic : Logic} {deployer : Account} {l : Ledger}
  (hdeployed : IsDeployed schema logic deployer l) {accounts : Set Account}
  (hl : l.KeepsApart accounts)
  (hwritten : ∀ w ∈ writtenCells (l.setUpEdits deployer), w.account ∈ accounts)

include hdeployed hl hwritten

/-- A cell that the initializer does not write reads zero. -/
theorem cell_of_isDeployed {w : Cell} (hw : w.account ∈ accounts)
    (hfresh : w ∉ writtenCells (l.setUpEdits deployer)) : l.cell w = 0 :=
  hdeployed.commits.load_cellSlot hl.cells hwritten hw hfresh

/-- A fresh ledger conserves, whatever its initializer did. -/
theorem conserves_of_isDeployed {carrier : Finset Account} (hcarrier : ↑carrier ⊆ accounts)
    (hcovers : ∀ a, .balance a ∈ writtenCells (l.setUpEdits deployer) → a ∈ carrier) :
    l.Conserves carrier := by
  have hsum := hdeployed.commits.sum_balances hl.cells hwritten hcarrier hcovers
  have hsupply : (View.mk l.bindings Storage.empty.load).totalSupply.toNat = 0 := rfl
  have hbalances :
      ∑ a ∈ carrier, ((View.mk l.bindings Storage.empty.load).balanceOf a).toNat = 0 :=
    Finset.sum_eq_zero fun _ _ => rfl
  rw [hsupply, hbalances, Nat.zero_add, Nat.add_zero] at hsum
  exact hsum

end Deployed

/-- **The supply is the sum of all balances**, in every ledger that any calls under any logic lead
to.  The accounts considered are those that the run writes and any others, and the hash is assumed
to keep their cells apart; the sum is over any of them that include every account whose balance the
run wrote, and the others have no balance. -/
theorem totalSupply_run_eq_sum {schema : Schema} {logic : Logic} {deployer : Account} {l : Ledger}
    (hdeployed : IsDeployed schema logic deployer l) (calls : List Call)
    {considered : Set Account} (hdistinct : l.bindings.CellsDistinct considered)
    (hhigh : l.bindings.CellsHigh considered)
    (hwritten : ∀ w ∈ writtenCells (l.setUpEdits deployer ++ l.runEdits calls),
      w.account ∈ considered)
    {carrier : Finset Account} (hcarrier : ↑carrier ⊆ considered)
    (hcovers : ∀ a, .balance a ∈ writtenCells (l.setUpEdits deployer ++ l.runEdits calls) →
      a ∈ carrier) :
    (l.run calls).totalSupply.toNat = ∑ a ∈ carrier, ((l.run calls).balanceOf a).toNat ∧
      ∀ a ∈ considered, a ∉ carrier → (l.run calls).balanceOf a = 0 := by
  have hl : l.KeepsApart considered := ⟨hdeployed.isBound, hdistinct, hhigh⟩
  simp only [writtenCells_append, List.mem_append] at hwritten hcovers
  have hset : ∀ w ∈ writtenCells (l.setUpEdits deployer), w.account ∈ considered :=
    fun w hw => hwritten w (.inl hw)
  have hrun : ∀ w ∈ writtenCells (l.runEdits calls), w.account ∈ considered :=
    fun w hw => hwritten w (.inr hw)
  constructor
  · refine conserves_run hl hrun hcarrier (fun a ha => hcovers a (.inr ha)) ?_
    exact conserves_of_isDeployed hdeployed hl hset hcarrier fun a ha => hcovers a (.inl ha)
  · intro a ha hother
    have hkept := cell_run hl hrun (w := .balance a) ha fun hw => hother (hcovers a (.inr hw))
    have hzero := cell_of_isDeployed hdeployed hl hset (w := .balance a) ha
      fun hw => hother (hcovers a (.inl hw))
    rw [balanceOf_eq_cell, hkept, hzero]

/-- A mint, the upgrade to the second version of the token, and a transfer. -/
def mintUpgradeTransfer : List Call :=
  [.mint 0xd0 0xd0 5, .upgrade .tokenV2 .tokenV2, .transfer 0xd0 0xb0 2]

set_option maxRecDepth 100000 in
/-- A supply of five that two accounts hold after an upgrade. -/
theorem totalSupply_run_mintUpgradeTransfer :
    ∃ l, IsDeployed .tokenV1 .tokenV1 0xd0 l ∧ (l.run mintUpgradeTransfer).totalSupply = 5 ∧
      (l.run mintUpgradeTransfer).totalSupply.toNat =
        ∑ a ∈ {0xd0, 0xb0}, ((l.run mintUpgradeTransfer).balanceOf a).toNat := by
  have htest : passes (deploy .tokenV1 .tokenV1 0xd0) (fun l => decide
      ((l.bindings.balances = 1 ∧ l.bindings.roles = 3) ∧
        (∀ w ∈ writtenCells (l.setUpEdits 0xd0 ++ l.runEdits mintUpgradeTransfer),
          w.account ∈ [0xd0, 0xb0]) ∧
        (l.run mintUpgradeTransfer).totalSupply = 5)) = true := by
    decide +kernel
  obtain ⟨l, hdeployed, htest⟩ := exists_of_passes htest
  obtain ⟨⟨hbalances, hroles⟩, hwritten, hsupply⟩ := of_decide_eq_true htest
  obtain ⟨hdistinct, hhigh⟩ := Bindings.cells_of_token hbalances hroles
  have hmem : ∀ a : Account, a ∈ ({0xd0, 0xb0} : Finset Account) ↔ a ∈ [0xd0, 0xb0] := by simp
  obtain ⟨hsum, -⟩ := totalSupply_run_eq_sum (.inl hdeployed) mintUpgradeTransfer hdistinct hhigh
    hwritten (fun a ha => (hmem a).mp ha)
    fun a ha => (hmem a).mpr (hwritten (.balance a) ha)
  exact ⟨l, .inl hdeployed, hsupply, hsum⟩

end Ledger

end SlotLedger
