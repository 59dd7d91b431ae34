import Mathlib.Algebra.BigOperators.Group.Finset.Basic
import Mathlib.Algebra.GroupWithZero.Nat
import SlotLedger.Ledger.Invariant
import SlotLedger.Proofs.Ledger.Staging
import SlotLedger.Proofs.Outcome

/-!
# What passes the gate

The three checks in front of a commit, said on exact numbers.  The conservation check adds up with
bounds: besides the balance of what moved it asks that its own sum, the balances before together
with the supply after, fits a word.

## Main definitions

* `Transaction.totalBefore`, `Transaction.totalAfter`: the balances written, added up exactly
* `Transaction.IsBalanced`, `Transaction.SumsFit`, `Transaction.IsMonotone`, `Transaction.IsCapped`

## Main results

* `Transaction.totalBefore_eq_sum`, `Transaction.totalAfter_eq_sum`: sums over the accounts written
* `Transaction.validate_eq_ok_iff`: what passes the gate
-/

namespace SlotLedger.Transaction

/-! ## Conservation -/

/-- The balances before of the accounts written, added up exactly. -/
def totalBefore (tx : Transaction) : Nat := (tx.balanceChanges.map fun c => c.before.toNat).sum

/-- The balances after of the accounts written, added up exactly. -/
def totalAfter (tx : Transaction) : Nat := (tx.balanceChanges.map fun c => c.after.toNat).sum

section Started

variable {base : Storage} {b : Bindings} {edits : List Edit} {written : Finset Account}
  (hwritten : ∀ a, a ∈ written ↔ .balance a ∈ writtenCells edits)

include hwritten

theorem toFinset_keys_balancesBefore :
    ((start base b).applyAll edits).balancesBefore.keys.toFinset = written := by
  ext a
  rw [List.mem_toFinset, mem_keys_balancesBefore, hwritten]

/-- Every account written counts once, with its committed balance. -/
theorem totalBefore_eq_sum :
    ((start base b).applyAll edits).totalBefore =
      ∑ a ∈ written, ((View.mk b base.load).balanceOf a).toNat := by
  rw [totalBefore, balanceChanges_eq, List.map_map, ← toFinset_keys_balancesBefore hwritten,
    List.sum_toFinset _ (Table.nodup_keys _)]
  rfl

/-- Every account written counts once, with the balance that the transaction reads last. -/
theorem totalAfter_eq_sum :
    ((start base b).applyAll edits).totalAfter =
      ∑ a ∈ written, (((start base b).applyAll edits).view.balanceOf a).toNat := by
  rw [totalAfter, balanceChanges_eq, List.map_map, ← toFinset_keys_balancesBefore hwritten,
    List.sum_toFinset _ (Table.nodup_keys _)]
  rfl

end Started

/-- Balances and supply move by the same amount. -/
def IsBalanced (tx : Transaction) : Prop :=
  tx.totalBefore + tx.view.totalSupply.toNat = tx.totalAfter + tx.committed.totalSupply.toNat

/-- The sum that the conservation check forms is a word. -/
def SumsFit (tx : Transaction) : Prop :=
  tx.totalBefore + tx.view.totalSupply.toNat < Word.bound

theorem sum_eq_ok_iff {a b c : Amount} : sum a b = .ok c ↔ c.toNat = a.toNat + b.toNat := by
  rw [sum, mapError_eq_ok_iff]
  constructor
  · exact Amount.toNat_checkedAdd
  · intro hc
    have hfits : a.toNat + b.toNat < Word.bound := hc ▸ c.isLt
    rw [Amount.checkedAdd, if_pos hfits, Except.ok.injEq]
    apply BitVec.eq_of_toNat_eq
    rw [hc, BitVec.toNat_add]
    exact Nat.mod_eq_of_lt hfits

theorem addChanges_eq_ok_iff {changes : List BalanceChange} {before after before' after' : Amount} :
    addChanges (before, after) changes = .ok (before', after') ↔
      before'.toNat = before.toNat + (changes.map fun c => c.before.toNat).sum ∧
        after'.toNat = after.toNat + (changes.map fun c => c.after.toNat).sum := by
  induction changes generalizing before after with
  | nil =>
    simp only [addChanges, Except.ok.injEq, Prod.mk.injEq, List.map_nil, List.sum_nil,
      Nat.add_zero]
    exact and_congr (eq_comm.trans BitVec.toNat_inj.symm) (eq_comm.trans BitVec.toNat_inj.symm)
  | cons change rest ih =>
    simp only [addChanges, bind_eq_ok_iff, sum_eq_ok_iff, ih, List.map_cons, List.sum_cons]
    constructor
    · rintro ⟨b, hb, a, ha, hb', ha'⟩
      omega
    · rintro ⟨hb', ha'⟩
      -- The sum of the first is below the whole, which is a word.
      have hb : before.toNat + change.before.toNat < 2 ^ 256 := by have := before'.isLt; omega
      have ha : after.toNat + change.after.toNat < 2 ^ 256 := by have := after'.isLt; omega
      refine ⟨BitVec.ofNat 256 (before.toNat + change.before.toNat), ?_,
        BitVec.ofNat 256 (after.toNat + change.after.toNat), ?_, ?_, ?_⟩ <;>
        rw [BitVec.toNat_ofNat, Nat.mod_eq_of_lt (by assumption)] <;> omega

/-- The conservation check passes what is balanced, as far as its sum is a word. -/
theorem checkConservation_eq_ok_iff {tx : Transaction} :
    tx.checkConservation = .ok () ↔ tx.IsBalanced ∧ tx.SumsFit := by
  have hzero : (0 : Amount).toNat = 0 := rfl
  simp only [checkConservation, bind_eq_ok_iff, Prod.exists, addChanges_eq_ok_iff, sum_eq_ok_iff,
    hzero, Nat.zero_add]
  unfold IsBalanced SumsFit totalBefore totalAfter
  set sumBefore := (tx.balanceChanges.map fun c => c.before.toNat).sum
  set sumAfter := (tx.balanceChanges.map fun c => c.after.toNat).sum
  constructor
  · rintro ⟨before, after, ⟨hbefore, hafter⟩, left, hleft, right, hright, hcheck⟩
    have heq : left = right := by
      by_contra hne
      rw [if_neg hne] at hcheck
      cases hcheck
    have hlt : left.toNat < Word.bound := left.isLt
    rw [← hbefore, ← hafter, ← hleft, ← hright]
    exact ⟨congrArg BitVec.toNat heq, hlt⟩
  · rintro ⟨hbalanced, hfit⟩
    have hword : Word.bound = 2 ^ 256 := rfl
    have hofNat : ∀ n, n < Word.bound → (BitVec.ofNat 256 n).toNat = n := by
      intro n hn
      rw [BitVec.toNat_ofNat]
      exact Nat.mod_eq_of_lt hn
    have hbefore := hofNat sumBefore (by omega)
    have hafter := hofNat sumAfter (by omega)
    have hsum := hofNat _ hfit
    refine ⟨_, _, ⟨hbefore, hafter⟩, _, hsum.trans (by rw [hbefore]), _,
      hsum.trans (by rw [hafter, hbalanced]), if_pos rfl⟩

/-! ## Monotony and cap -/

/-- The audited amount does not fall. -/
def IsMonotone (tx : Transaction) : Prop :=
  ∀ before ∈ tx.committed.totalAudited, ∀ after ∈ tx.view.totalAudited, before ≤ after

/-- If the supply rises, it stays at or below the audited amount. -/
def IsCapped (tx : Transaction) : Prop :=
  tx.committed.totalSupply < tx.view.totalSupply →
    ∃ audited ∈ tx.view.totalAudited, tx.view.totalSupply ≤ audited

theorem checkMonotony_eq_ok_iff {tx : Transaction} :
    tx.checkMonotony = .ok () ↔ tx.IsMonotone := by
  unfold checkMonotony IsMonotone
  cases tx.committed.totalAudited with
  | none => simp
  | some before =>
    cases tx.view.totalAudited with
    | none => simp
    | some after =>
      by_cases h : after < before
      · simp [h]
      · simp [h, BitVec.not_lt.mp h]

theorem checkCap_eq_ok_iff {tx : Transaction} : tx.checkCap = .ok () ↔ tx.IsCapped := by
  unfold checkCap IsCapped
  by_cases hle : tx.view.totalSupply ≤ tx.committed.totalSupply
  · exact iff_of_true (if_pos hle) fun hlt => absurd hle (BitVec.not_le.mpr hlt)
  · have hlt := BitVec.not_le.mp hle
    cases tx.view.totalAudited with
    | none => simp [hle, hlt]
    | some audited =>
      by_cases h : audited < tx.view.totalSupply
      · simp [h, hle, hlt]
      · simp [h, hle, BitVec.not_lt.mp h]

/-- **What passes the gate.** -/
theorem validate_eq_ok_iff {tx : Transaction} {capEnforced : Bool} :
    tx.validate capEnforced = .ok () ↔
      tx.IsBalanced ∧ tx.SumsFit ∧ tx.IsMonotone ∧ (capEnforced = true → tx.IsCapped) := by
  rw [← and_assoc, ← checkConservation_eq_ok_iff, ← checkMonotony_eq_ok_iff, ← checkCap_eq_ok_iff]
  rw [validate, seq_eq_ok_iff, seq_eq_ok_iff]
  cases capEnforced <;> simp [pure, Except.pure]

/-- Where the balances and the supply move together, under the cap and beside the counter, the gate
asks only that its sum is a word. -/
theorem validate_eq_ok_iff_sumsFit {tx : Transaction} {capEnforced : Bool}
    (hbalanced : tx.IsBalanced) (haudited : tx.view.totalAudited = tx.committed.totalAudited)
    (hcapped : capEnforced = true → tx.IsCapped) :
    tx.validate capEnforced = .ok () ↔ tx.SumsFit := by
  have hmonotone : tx.IsMonotone := by
    intro before hbefore after hafter
    rw [haudited] at hafter
    obtain rfl : before = after := Option.some.inj (hbefore.symm.trans hafter)
    exact BitVec.le_refl before
  rw [validate_eq_ok_iff]
  constructor
  · rintro ⟨-, hfits, -⟩
    exact hfits
  · intro hfits
    exact ⟨hbalanced, hfits, hmonotone, hcapped⟩

end SlotLedger.Transaction
