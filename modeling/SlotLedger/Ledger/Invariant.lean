import SlotLedger.Ledger.Error
import SlotLedger.Ledger.Transaction

/-!
# The invariant gate

Every staged change passes three checks before it is committed:

* conservation: the balances written and the total supply move by the same amount;
* monotony: the audited amount does not fall;
* cap: a change that raises the supply leaves it at or below the audited amount.
-/

namespace SlotLedger.Transaction

/-- A checked sum as an answer of the ledger. -/
def sum (a b : Amount) : Except LedgerError Amount :=
  (Amount.checkedAdd a b).mapError .invalidAmount

/-- The sums of the balances before and after the given changes, on top of two sums. -/
def addChanges : Amount × Amount → List BalanceChange → Except LedgerError (Amount × Amount)
  | sums, [] => .ok sums
  | (before, after), change :: rest => do
    let before ← sum before change.before
    let after ← sum after change.after
    addChanges (before, after) rest

/-- Balances and supply move alike: the balances before and the supply after are together as much
as the balances after and the supply before. -/
def checkConservation (tx : Transaction) : Except LedgerError Unit := do
  let (sumBefore, sumAfter) ← addChanges (0, 0) tx.balanceChanges
  let supplyBefore := tx.committed.totalSupply
  let supplyAfter := tx.view.totalSupply
  -- Stated by sums alone: a difference could be negative.
  let left ← sum sumBefore supplyAfter
  let right ← sum sumAfter supplyBefore
  if left = right then
    .ok ()
  else
    .error (.invariantViolation (.supplyConservation sumBefore sumAfter supplyBefore supplyAfter))

/-- The audited amount does not fall. -/
def checkMonotony (tx : Transaction) : Except LedgerError Unit :=
  match tx.committed.totalAudited, tx.view.totalAudited with
  | some before, some after =>
    if after < before then .error (.invariantViolation (.auditMonotonic before after)) else .ok ()
  | _, _ => .ok ()

/-- A change that raises the supply leaves it at or below the audited amount. -/
def checkCap (tx : Transaction) : Except LedgerError Unit :=
  let supplyBefore := tx.committed.totalSupply
  let supplyAfter := tx.view.totalSupply
  if supplyAfter ≤ supplyBefore then
    .ok ()
  else
    match tx.view.totalAudited with
    | none => .error (.invariantViolation .auditCapUnset)
    | some audited =>
      if audited < supplyAfter then .error (.invariantViolation (.auditCap supplyAfter audited))
      else .ok ()

/-- Check a staged change; the cap is checked where it is enforced. -/
def validate (tx : Transaction) (capEnforced : Bool) : Except LedgerError Unit := do
  tx.checkConservation
  tx.checkMonotony
  if capEnforced then tx.checkCap

end SlotLedger.Transaction
