import Mathlib.Algebra.Order.BigOperators.Group.Finset
import SlotLedger.Proofs.Ledger.Conservation
import SlotLedger.Proofs.Ledger.Registry
import SlotLedger.Proofs.Ledger.Standard

/-!
# Movements of funds

When a standard ledger accepts a mint or a transfer.  Besides what the operations ask themselves,
the caller's role, a positive amount, the cap and the balance, there is one condition more: the
conservation check adds the supply to the balances that it compares, and that sum has to be a word.
As no balances are more than the supply, ledgers that stay below half of the range never notice.

## Main definitions

* `transferEdits`: the edits of a transfer

## Main results

* `Transaction.yields_transfer_iff`: what a transfer stages
* `Transaction.validate_mint_iff`, `Transaction.validate_transfer_iff`: what the gate asks
* `Ledger.mint_accepted_iff`, `Ledger.transfer_accepted_iff`: when a movement is accepted
* `Ledger.movement_accepted_iff`: the same of all ledgers of the builtin registry
* `Ledger.movement_accepted_of_lt`: below half of the range the operations' own conditions do
-/

namespace SlotLedger

/-! ## What is staged -/

/-- The edits of a transfer over a view; a receiver that is the caller has been debited before. -/
def transferEdits (v : View) (caller receiver : Account) (amount : Amount) : List Edit :=
  [.balance caller (v.balanceOf caller - amount),
    .balance receiver
      ((if receiver = caller then v.balanceOf caller - amount else v.balanceOf receiver) + amount)]

variable {accounts : Set Account} {v : View} {caller target receiver : Account} {amount : Amount}

theorem isAmong_of_mem_mintEdits (htarget : target ∈ accounts) :
    ∀ e ∈ Logic.mintEdits v target amount, e.datum.IsAmong accounts := by
  simp only [Logic.mintEdits, List.forall_mem_cons, List.not_mem_nil, false_imp_iff, implies_true,
    and_true]
  exact ⟨htarget, trivial⟩

theorem isAmong_of_mem_transferEdits (hcaller : caller ∈ accounts)
    (hreceiver : receiver ∈ accounts) :
    ∀ e ∈ transferEdits v caller receiver amount, e.datum.IsAmong accounts := by
  simp only [transferEdits, List.forall_mem_cons, List.not_mem_nil, false_imp_iff, implies_true,
    and_true]
  exact ⟨hcaller, hreceiver⟩

theorem mem_writtenCells_mintEdits (a : Account) :
    a ∈ ({target} : Finset Account) ↔
      .balance a ∈ writtenCells (Logic.mintEdits v target amount) := by
  simp [writtenCells, Logic.mintEdits, Edit.cell?]

theorem mem_writtenCells_transferEdits (a : Account) :
    a ∈ ({caller, receiver} : Finset Account) ↔
      .balance a ∈ writtenCells (transferEdits v caller receiver amount) := by
  simp [writtenCells, transferEdits, Edit.cell?]

/-! ## What the gate asks -/

namespace Transaction

variable {b : Bindings} (h : b.Separates accounts) {base : Storage}

include h

section Mint

variable (htarget : target ∈ accounts)

include htarget

theorem balanceOf_mint :
    ((start base b).applyAll (Logic.mintEdits (.mk b base.load) target amount)).view.balanceOf
        target = (View.mk b base.load).balanceOf target + amount := by
  rw [h.balanceOf_applyAll (isAmong_of_mem_mintEdits htarget) base htarget]
  simp [Datum.wordAfter, Logic.mintEdits, Edit.datum, Edit.word]

theorem totalSupply_mint :
    ((start base b).applyAll (Logic.mintEdits (.mk b base.load) target amount)).view.totalSupply =
      (View.mk b base.load).totalSupply + amount := by
  rw [h.totalSupply_applyAll (isAmong_of_mem_mintEdits htarget) base]
  simp [Datum.wordAfter, Logic.mintEdits, Edit.datum, Edit.word]

theorem totalAudited_mint :
    ((start base b).applyAll (Logic.mintEdits (.mk b base.load) target amount)).view.totalAudited =
      (View.mk b base.load).totalAudited := by
  rw [h.totalAudited_applyAll (isAmong_of_mem_mintEdits htarget) base]
  exact Option.map_id'

/-- **The gate lets a staged mint pass** exactly if the sum that it forms is a word. -/
theorem validate_mint_iff
    (hbalance : ((View.mk b base.load).balanceOf target).toNat + amount.toNat < Word.bound)
    (hsupply : (View.mk b base.load).totalSupply.toNat + amount.toNat < Word.bound)
    (hcap : ∀ audited ∈ (View.mk b base.load).totalAudited,
      (View.mk b base.load).totalSupply.toNat + amount.toNat ≤ audited.toNat) :
    ((start base b).applyAll (Logic.mintEdits (.mk b base.load) target amount)).validate
        b.totalAudited.isSome = .ok () ↔
      ((View.mk b base.load).balanceOf target).toNat +
        ((View.mk b base.load).totalSupply.toNat + amount.toNat) < Word.bound := by
  set v := View.mk b base.load
  set tx := (start base b).applyAll (Logic.mintEdits v target amount)
  have hcommitted : tx.committed = v := committed_applyAll _ _
  have haudited' : tx.view.totalAudited = v.totalAudited := totalAudited_mint h htarget
  have hsupply' : tx.view.totalSupply.toNat = v.totalSupply.toNat + amount.toNat := by
    rw [totalSupply_mint h htarget]
    exact BitVec.toNat_add_of_lt hsupply
  have hbefore : tx.totalBefore = (v.balanceOf target).toNat := by
    rw [totalBefore_eq_sum mem_writtenCells_mintEdits, Finset.sum_singleton]
  have hafter : tx.totalAfter = (v.balanceOf target).toNat + amount.toNat := by
    rw [totalAfter_eq_sum mem_writtenCells_mintEdits, Finset.sum_singleton,
      balanceOf_mint h htarget]
    exact BitVec.toNat_add_of_lt hbalance
  -- A mint adds its amount on both sides of the balance, so only the range is in question.
  rw [validate_eq_ok_iff_sumsFit, SumsFit, hbefore, hsupply']
  · rw [IsBalanced, hbefore, hafter, hsupply', hcommitted]
    omega
  · rw [haudited', hcommitted]
  · -- The logic has compared the new supply with the counter already.
    intro hcounter _
    obtain ⟨slot, hslot⟩ := Option.isSome_iff_exists.mp hcounter
    have hcounted : v.totalAudited = some (v.load slot) := congrArg (Option.map _) hslot
    refine ⟨v.load slot, haudited'.trans hcounted, ?_⟩
    rw [BitVec.le_def, hsupply']
    exact hcap _ hcounted

end Mint

section Transfer

variable (hcaller : caller ∈ accounts) (hreceiver : receiver ∈ accounts)

include hcaller hreceiver

/-- What an account reads after a debit; the receiver of a transfer is read then. -/
theorem balanceOf_debited (left : Amount) :
    ((start base b).apply (.balance caller left)).view.balanceOf receiver =
      if receiver = caller then left else (View.mk b base.load).balanceOf receiver := by
  have hedits : ∀ e ∈ [Edit.balance caller left], e.datum.IsAmong accounts := by
    simp only [List.forall_mem_cons, List.not_mem_nil, false_imp_iff, implies_true, and_true]
    exact hcaller
  refine (h.balanceOf_applyAll hedits base hreceiver).trans ?_
  simp [Datum.wordAfter, Edit.datum, Edit.word, eq_comm (b := receiver)]

/-- What the standard transfer yields where cells are apart. -/
theorem yields_transfer_iff {edits : List Edit} :
    (Logic.standardTransfer caller receiver amount).Yields (start base b) () edits ↔
      amount ≠ 0 ∧ amount.toNat ≤ ((View.mk b base.load).balanceOf caller).toNat ∧
        (if receiver = caller then (View.mk b base.load).balanceOf caller - amount
          else (View.mk b base.load).balanceOf receiver).toNat + amount.toNat < Word.bound ∧
        edits = transferEdits (.mk b base.load) caller receiver amount := by
  have hview : (start base b).view = View.mk b base.load := rfl
  rw [Logic.yields_standardTransfer_iff, hview, balanceOf_debited h hcaller hreceiver]
  simp only [exists_eq_left', transferEdits]

theorem balanceOf_transfer {a : Account} (ha : a ∈ accounts) :
    ((start base b).applyAll
        (transferEdits (.mk b base.load) caller receiver amount)).view.balanceOf a =
      if a = receiver then
        (if receiver = caller then (View.mk b base.load).balanceOf caller - amount
          else (View.mk b base.load).balanceOf receiver) + amount
      else if a = caller then (View.mk b base.load).balanceOf caller - amount
      else (View.mk b base.load).balanceOf a := by
  rw [h.balanceOf_applyAll (isAmong_of_mem_transferEdits hcaller hreceiver) base ha]
  simp [Datum.wordAfter, transferEdits, Edit.datum, Edit.word, eq_comm (b := a)]

theorem totalSupply_transfer :
    ((start base b).applyAll
        (transferEdits (.mk b base.load) caller receiver amount)).view.totalSupply =
      (View.mk b base.load).totalSupply :=
  h.totalSupply_applyAll (isAmong_of_mem_transferEdits hcaller hreceiver) base

theorem totalAudited_transfer :
    ((start base b).applyAll
        (transferEdits (.mk b base.load) caller receiver amount)).view.totalAudited =
      (View.mk b base.load).totalAudited := by
  rw [h.totalAudited_applyAll (isAmong_of_mem_transferEdits hcaller hreceiver) base]
  exact Option.map_id'

/-- A transfer leaves the sum of the two balances as it was, also where the two are one. -/
theorem sum_balances_transfer
    (henough : amount.toNat ≤ ((View.mk b base.load).balanceOf caller).toNat)
    (hroom : (if receiver = caller then (View.mk b base.load).balanceOf caller - amount
      else (View.mk b base.load).balanceOf receiver).toNat + amount.toNat < Word.bound) :
    ∑ a ∈ {caller, receiver}, (((start base b).applyAll
        (transferEdits (.mk b base.load) caller receiver amount)).view.balanceOf a).toNat =
      ∑ a ∈ {caller, receiver}, ((View.mk b base.load).balanceOf a).toNat := by
  set v := View.mk b base.load
  have hleft : (v.balanceOf caller - amount).toNat = (v.balanceOf caller).toNat - amount.toNat :=
    BitVec.toNat_sub_of_le henough
  have hadded := BitVec.toNat_add_of_lt hroom
  set tx := (start base b).applyAll (transferEdits v caller receiver amount)
  have hcredit : tx.view.balanceOf receiver = _ :=
    balanceOf_transfer h hcaller hreceiver hreceiver
  have hdebit : tx.view.balanceOf caller = _ := balanceOf_transfer h hcaller hreceiver hcaller
  rw [if_pos rfl] at hcredit
  by_cases hself : receiver = caller
  · -- The receiver reads what the debit left, so the balance is back where it was.
    subst hself
    rw [if_pos rfl] at hadded hcredit
    rw [Finset.pair_eq_singleton, Finset.sum_singleton, Finset.sum_singleton, hcredit, hadded,
      hleft]
    omega
  · rw [if_neg hself] at hadded hcredit
    rw [if_neg (Ne.symm hself), if_pos rfl] at hdebit
    rw [Finset.sum_pair (Ne.symm hself), Finset.sum_pair (Ne.symm hself), hdebit, hcredit, hleft,
      hadded]
    omega

/-- **The gate lets a staged transfer pass** exactly if the sum that it forms is a word. -/
theorem validate_transfer_iff
    (henough : amount.toNat ≤ ((View.mk b base.load).balanceOf caller).toNat)
    (hroom : (if receiver = caller then (View.mk b base.load).balanceOf caller - amount
      else (View.mk b base.load).balanceOf receiver).toNat + amount.toNat < Word.bound) :
    ((start base b).applyAll (transferEdits (.mk b base.load) caller receiver amount)).validate
        b.totalAudited.isSome = .ok () ↔
      ∑ a ∈ {caller, receiver}, ((View.mk b base.load).balanceOf a).toNat +
        (View.mk b base.load).totalSupply.toNat < Word.bound := by
  set v := View.mk b base.load
  set tx := (start base b).applyAll (transferEdits v caller receiver amount)
  have hcommitted : tx.committed = v := committed_applyAll _ _
  have hsupply' : tx.view.totalSupply = v.totalSupply := totalSupply_transfer h hcaller hreceiver
  have hbefore : tx.totalBefore = ∑ a ∈ {caller, receiver}, (v.balanceOf a).toNat :=
    totalBefore_eq_sum mem_writtenCells_transferEdits
  have hafter : tx.totalAfter = ∑ a ∈ {caller, receiver}, (v.balanceOf a).toNat :=
    (totalAfter_eq_sum mem_writtenCells_transferEdits).trans
      (sum_balances_transfer h hcaller hreceiver henough hroom)
  -- A transfer changes neither sum, so only the range is in question.
  rw [validate_eq_ok_iff_sumsFit, SumsFit, hbefore, hsupply']
  · rw [IsBalanced, hbefore, hafter, hsupply', hcommitted]
  · rw [hcommitted]
    exact totalAudited_transfer h hcaller hreceiver
  · -- The cap is asked for only where the supply rises.
    intro _ hrise
    rw [hsupply', hcommitted] at hrise
    exact absurd hrise (BitVec.lt_irrefl _)

end Transfer

end Transaction

namespace Ledger

/-! ## What is accepted -/

/-- An operation is accepted exactly if the active logic yields edits that pass the gate. -/
theorem exists_execute_eq_ok_iff {l : Ledger} {operation : Logic → Stage Unit} :
    (∃ m, l.execute operation = .ok m) ↔
      ∃ edits, (operation l.logic).Yields l.transaction () edits ∧
        (l.transaction.applyAll edits).validate l.bindings.totalAudited.isSome = .ok () := by
  constructor
  · rintro ⟨m, hm⟩
    obtain ⟨hresult, hcommits, -⟩ := execute_eq_ok_iff.mp hm
    refine ⟨(operation l.logic l.transaction).edits, ?_, hcommits.accepted⟩
    rw [Stage.Yields, ← hresult]
  · rintro ⟨edits, hyields, haccepted⟩
    rw [Stage.Yields] at hyields
    refine ⟨{ l with storage := l.storage.apply (l.transaction.applyAll edits).writes },
      execute_eq_ok_iff.mpr ?_⟩
    rw [hyields]
    exact ⟨rfl, ⟨haccepted, rfl⟩, rfl⟩

section Standard

variable {l : Ledger} (hl : l.IsStandard) {accounts : Set Account}
  (hdistinct : l.bindings.CellsDistinct accounts) (hhigh : l.bindings.CellsHigh accounts)

include hl hdistinct hhigh

theorem separates_of_isStandard : l.bindings.Separates accounts :=
  ⟨⟨Logic.isLow_of_bind hl.isBound.bound, hdistinct, hhigh⟩,
    hl.standard.counters _ hl.isBound.bound⟩

/-- **When a mint is accepted**: besides what a mint asks for, the balance and the new supply
together have to be a word. -/
theorem mint_accepted_iff {caller target : Account} (htarget : target ∈ accounts)
    {amount : Amount} :
    (∃ m, l.mint caller target amount = .ok m) ↔
      (l.hasRole .minter caller = true ∧ amount ≠ 0 ∧
        ∀ audited ∈ l.totalAudited, l.totalSupply.toNat + amount.toNat ≤ audited.toNat) ∧
      (l.balanceOf target).toNat + (l.totalSupply.toNat + amount.toNat) < Word.bound := by
  have hseparates := separates_of_isStandard hl hdistinct hhigh
  rw [mint, exists_execute_eq_ok_iff, hl.standard.mint]
  simp only [Logic.yields_standardMint_iff]
  constructor
  · rintro ⟨edits, ⟨hrole, hpositive, hcap, hbalance, hsupply, rfl⟩, haccepted⟩
    exact ⟨⟨hrole, hpositive, hcap⟩, (Transaction.validate_mint_iff hseparates htarget hbalance
      hsupply hcap).mp haccepted⟩
  · rintro ⟨⟨hrole, hpositive, hcap⟩, hfits⟩
    -- What the logic asks of the range follows from what the gate asks.
    have hbalance : (l.balanceOf target).toNat + amount.toNat < Word.bound := by omega
    have hsupply : l.totalSupply.toNat + amount.toNat < Word.bound := by omega
    exact ⟨_, ⟨hrole, hpositive, hcap, hbalance, hsupply, rfl⟩,
      (Transaction.validate_mint_iff hseparates htarget hbalance hsupply hcap).mpr hfits⟩

/-- **When a transfer is accepted**: besides what a transfer asks for, the balances of the two and
the supply together have to be a word. -/
theorem transfer_accepted_iff {caller receiver : Account} (hcaller : caller ∈ accounts)
    (hreceiver : receiver ∈ accounts) {amount : Amount} :
    (∃ m, l.transfer caller receiver amount = .ok m) ↔
      (amount ≠ 0 ∧ amount.toNat ≤ (l.balanceOf caller).toNat) ∧
      ∑ a ∈ {caller, receiver}, (l.balanceOf a).toNat + l.totalSupply.toNat < Word.bound := by
  have hseparates := separates_of_isStandard hl hdistinct hhigh
  rw [transfer, exists_execute_eq_ok_iff, hl.standard.transfer, transaction]
  simp only [Transaction.yields_transfer_iff hseparates hcaller hreceiver]
  constructor
  · rintro ⟨edits, ⟨hpositive, henough, hroom, rfl⟩, haccepted⟩
    exact ⟨⟨hpositive, henough⟩, (Transaction.validate_transfer_iff hseparates hcaller hreceiver
      henough hroom).mp haccepted⟩
  · rintro ⟨⟨hpositive, henough⟩, hfits⟩
    -- A receiver other than the caller has room, as the amount is part of the caller's balance.
    have hroom : (if receiver = caller then l.balanceOf caller - amount
        else l.balanceOf receiver).toNat + amount.toNat < Word.bound := by
      by_cases hself : receiver = caller
      · rw [if_pos hself, BitVec.toNat_sub_of_le henough, Nat.sub_add_cancel henough]
        exact (l.balanceOf caller).isLt
      · rw [Finset.sum_pair (Ne.symm hself)] at hfits
        rw [if_neg hself]
        omega
    exact ⟨_, ⟨hpositive, henough, hroom, rfl⟩, (Transaction.validate_transfer_iff hseparates
      hcaller hreceiver henough hroom).mpr hfits⟩

end Standard

/-! ## Within the builtin registry -/

section Builtin

variable {d : Deployment} {l : Ledger} (hdeployed : d.deploy .builtin = .ok l)
  (operations : List Operation)

include hdeployed

theorem keepsApart_of_builtin {accounts : Set Account}
    (hdistinct : l.bindings.CellsDistinct accounts) (hhigh : l.bindings.CellsHigh accounts) :
    (l.operateAll .builtin operations).KeepsApart accounts := by
  rw [operateAll_eq_run]
  exact keepsApart_run ⟨isBound_of_deploy hdeployed, hdistinct, hhigh⟩ _

/-- **When a movement of funds is accepted**, in every ledger that operations within the builtin
registry lead to, whatever they were.  Besides the conditions of the operation itself, the balances
written and the supply after it together have to be a word: nobody can pay out of a balance of half
the range. -/
theorem movement_accepted_iff {accounts : Set Account}
    (hdistinct : l.bindings.CellsDistinct accounts) (hhigh : l.bindings.CellsHigh accounts) :
    (∀ caller, ∀ target ∈ accounts, ∀ amount,
      (∃ m, (l.operateAll .builtin operations).mint caller target amount = .ok m) ↔
        ((l.operateAll .builtin operations).hasRole .minter caller = true ∧ amount ≠ 0 ∧
          ∀ audited ∈ (l.operateAll .builtin operations).totalAudited,
            (l.operateAll .builtin operations).totalSupply.toNat + amount.toNat ≤ audited.toNat) ∧
        ((l.operateAll .builtin operations).balanceOf target).toNat +
          ((l.operateAll .builtin operations).totalSupply.toNat + amount.toNat) < Word.bound) ∧
      ∀ caller ∈ accounts, ∀ receiver ∈ accounts, ∀ amount,
        (∃ m, (l.operateAll .builtin operations).transfer caller receiver amount = .ok m) ↔
          (amount ≠ 0 ∧
            amount.toNat ≤ ((l.operateAll .builtin operations).balanceOf caller).toNat) ∧
          ∑ a ∈ {caller, receiver}, ((l.operateAll .builtin operations).balanceOf a).toNat +
            (l.operateAll .builtin operations).totalSupply.toNat < Word.bound := by
  have hstandard := isStandard_operateAll hdeployed operations
  have hapart := keepsApart_of_builtin hdeployed operations hdistinct hhigh
  constructor
  · intro caller target htarget amount
    exact mint_accepted_iff hstandard hapart.distinct hapart.high htarget
  · intro caller hcaller receiver hreceiver amount
    exact transfer_accepted_iff hstandard hapart.distinct hapart.high hcaller hreceiver

/-- No balances of accounts considered are more than the supply. -/
theorem sum_balances_le_of_builtin {accounts : Finset Account}
    (hdistinct : l.bindings.CellsDistinct accounts) (hhigh : l.bindings.CellsHigh accounts)
    (hset : ∀ w ∈ writtenCells (l.setUpEdits d.deployer), w.account ∈ accounts)
    (hrun : ∀ w ∈ writtenCells (l.runEdits (operations.filterMap (·.call? .builtin))),
      w.account ∈ accounts) {part : Finset Account} (hpart : part ⊆ accounts) :
    ∑ a ∈ part, ((l.operateAll .builtin operations).balanceOf a).toNat ≤
      (l.operateAll .builtin operations).totalSupply.toNat := by
  obtain ⟨i, -, hfresh⟩ := isDeployed_of_deploy hdeployed
  have hl : l.KeepsApart accounts := ⟨hfresh.isBound, hdistinct, hhigh⟩
  have hconserves : l.Conserves accounts :=
    conserves_of_isDeployed hfresh hl hset (fun _ ha => ha) fun a ha => hset (.balance a) ha
  have hrun_conserves := conserves_run hl hrun (fun _ ha => ha)
    (fun a ha => hrun (.balance a) ha) hconserves
  -- The supply is the sum of the balances of all accounts considered.
  rw [operateAll_eq_run, hrun_conserves]
  exact Finset.sum_le_sum_of_subset hpart

/-- **Below half of the range no legitimate movement is refused.**  The accounts are those that the
run writes and any others. -/
theorem movement_accepted_of_lt {accounts : Finset Account}
    (hdistinct : l.bindings.CellsDistinct accounts) (hhigh : l.bindings.CellsHigh accounts)
    (hset : ∀ w ∈ writtenCells (l.setUpEdits d.deployer), w.account ∈ accounts)
    (hrun : ∀ w ∈ writtenCells (l.runEdits (operations.filterMap (·.call? .builtin))),
      w.account ∈ accounts) :
    (∀ caller, ∀ target ∈ accounts, ∀ amount,
      (l.operateAll .builtin operations).hasRole .minter caller = true → amount ≠ 0 →
        (∀ audited ∈ (l.operateAll .builtin operations).totalAudited,
          (l.operateAll .builtin operations).totalSupply.toNat + amount.toNat ≤ audited.toNat) →
        2 * (l.operateAll .builtin operations).totalSupply.toNat + amount.toNat < Word.bound →
          ∃ m, (l.operateAll .builtin operations).mint caller target amount = .ok m) ∧
      ∀ caller ∈ accounts, ∀ receiver ∈ accounts, ∀ amount,
        amount ≠ 0 → amount.toNat ≤ ((l.operateAll .builtin operations).balanceOf caller).toNat →
        2 * (l.operateAll .builtin operations).totalSupply.toNat < Word.bound →
          ∃ m, (l.operateAll .builtin operations).transfer caller receiver amount = .ok m := by
  have hstandard := isStandard_operateAll hdeployed operations
  have hapart := keepsApart_of_builtin hdeployed operations hdistinct hhigh
  constructor
  · intro caller target htarget amount hrole hpositive hcap hhalf
    -- A balance is no more than the supply, so what the gate adds up is at most twice that.
    have hle := sum_balances_le_of_builtin hdeployed operations hdistinct hhigh hset hrun
      (Finset.singleton_subset_iff.mpr htarget)
    rw [Finset.sum_singleton] at hle
    refine (mint_accepted_iff hstandard hapart.distinct hapart.high htarget).mpr
      ⟨⟨hrole, hpositive, hcap⟩, ?_⟩
    omega
  · intro caller hcaller receiver hreceiver amount hpositive henough hhalf
    have hle := sum_balances_le_of_builtin hdeployed operations hdistinct hhigh hset hrun
      (Finset.insert_subset hcaller (Finset.singleton_subset_iff.mpr hreceiver))
    refine (transfer_accepted_iff hstandard hapart.distinct hapart.high hcaller hreceiver).mpr
      ⟨⟨hpositive, henough⟩, ?_⟩
    omega

end Builtin

/-- A fresh first version. -/
def firstVersion : Deployment := ⟨"TokenUpgradeableV1", 0xd0, true⟩

/-- Half of the range of amounts. -/
def halfRange : Amount := .twoPow 256 255

set_option maxRecDepth 100000 in
/-- A mint of half the range is accepted, and of what it brought nothing can be transferred. -/
theorem transfer_refused_of_half :
    ∃ l, firstVersion.deploy .builtin = .ok l ∧ (∃ m, l.mint 0xd0 0xd0 halfRange = .ok m) ∧
      (l.operateAll .builtin [.mint 0xd0 0xd0 halfRange]).balanceOf 0xd0 = halfRange ∧
      ¬ ∃ m, (l.operateAll .builtin [.mint 0xd0 0xd0 halfRange]).transfer 0xd0 0xb0 1 = .ok m := by
  have htest : passes (firstVersion.deploy .builtin) (fun l => decide
      ((l.bindings.balances = 1 ∧ l.bindings.roles = 3) ∧
        l.hasRole .minter 0xd0 = true ∧ l.totalAudited = none ∧
        (l.balanceOf 0xd0).toNat + l.totalSupply.toNat < 2 ^ 255 ∧
        (l.operateAll .builtin [.mint 0xd0 0xd0 halfRange]).balanceOf 0xd0 = halfRange ∧
        (l.operateAll .builtin [.mint 0xd0 0xd0 halfRange]).totalSupply = halfRange)) = true := by
    decide +kernel
  obtain ⟨l, hdeployed, htest⟩ := exists_of_passes htest
  obtain ⟨⟨hbalances, hroles⟩, hrole, haudited, hlow, hbalance, hsupply⟩ := of_decide_eq_true htest
  obtain ⟨hdistinct, hhigh⟩ := Bindings.cells_of_token hbalances hroles
  have hhalf : halfRange.toNat = 2 ^ 255 := by decide +kernel
  have hbound : Word.bound = 2 ^ 256 := rfl
  refine ⟨l, hdeployed, ?_, hbalance, ?_⟩
  · have hfits : (l.balanceOf 0xd0).toNat + (l.totalSupply.toNat + halfRange.toNat) <
        Word.bound := by omega
    have hcap : ∀ audited ∈ l.totalAudited,
        l.totalSupply.toNat + halfRange.toNat ≤ audited.toNat := by
      rw [haudited]
      exact nofun
    exact ((movement_accepted_iff hdeployed [] hdistinct hhigh).1 0xd0 0xd0 (by decide)
      halfRange).mpr ⟨⟨hrole, by decide +kernel, hcap⟩, hfits⟩
  · intro haccepted
    obtain ⟨-, hfits⟩ := ((movement_accepted_iff hdeployed [.mint 0xd0 0xd0 halfRange] hdistinct
      hhigh).2 0xd0 (by decide) 0xb0 (by decide) 1).mp haccepted
    rw [Finset.sum_pair (by decide), hbalance, hsupply] at hfits
    omega

end Ledger

end SlotLedger
