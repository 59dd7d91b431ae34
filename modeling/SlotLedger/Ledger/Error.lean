import SlotLedger.Account
import SlotLedger.Amount
import SlotLedger.Layout.Compatibility
import SlotLedger.Role

/-!
# Refusals

Why a ledger refuses an operation or an upgrade.  A refusal means that nothing was committed.

## Main definitions

* `InvariantBreach`: what the gate in front of every commit found wrong.
* `LedgerError`: why an operation was refused.
* `UpgradeError`: why a deployment, an upgrade or a restoration was refused.
-/

namespace SlotLedger

/-- An invariant that a staged change would break, or that stored words do not satisfy. -/
inductive InvariantBreach where
  /-- Balances and total supply move by different amounts. -/
  | supplyConservation (sumBefore sumAfter supplyBefore supplyAfter : Amount)
  /-- A cap is asked for where no counter sets one. -/
  | auditCapUnset
  /-- The supply rises above the audited amount. -/
  | auditCap (supply audited : Amount)
  /-- The audited amount falls. -/
  | auditMonotonic (before after : Amount)
  /-- Storage that no initializer ever ran on. -/
  | initialized (schema : String)
deriving DecidableEq

/-- The name of the invariant. -/
def InvariantBreach.name : InvariantBreach → String
  | .supplyConservation .. => "supply_conservation"
  | .auditCapUnset | .auditCap .. => "audit_cap"
  | .auditMonotonic .. => "audit_monotonic"
  | .initialized _ => "initialized"

/-- How the invariant is broken. -/
def InvariantBreach.detail : InvariantBreach → String
  | .supplyConservation sumBefore sumAfter supplyBefore supplyAfter =>
    s!"balances moved from {Word.decimal sumBefore} to {Word.decimal sumAfter} while " ++
      s!"total supply moved from {Word.decimal supplyBefore} to {Word.decimal supplyAfter}"
  | .auditCapUnset => "cap enforced but the schema has no audited counter"
  | .auditCap supply audited =>
    s!"total supply {Word.decimal supply} exceeds audited amount {Word.decimal audited}"
  | .auditMonotonic before after =>
    s!"audited amount decreased from {Word.decimal before} to {Word.decimal after}"
  | .initialized schema => s!"storage for {schema} was never initialized"

/-- Why an operation was refused. -/
inductive LedgerError where
  | unauthorized (account : Account) (role : Role)
  | invalidAmount (fault : AmountFault)
  | mintExceedsAudit (totalSupply amount totalAudited : Amount)
  | insufficientBalance (account : Account) (available required : Amount)
  | unsupportedOperation (operation : String) (version : UInt32)
  | invariantViolation (breach : InvariantBreach)
  | alreadyInitialized
deriving DecidableEq

/-- The refusal's code, by which programs tell refusals apart. -/
def LedgerError.code : LedgerError → String
  | .unauthorized .. => "unauthorized"
  | .invalidAmount _ => "invalid_amount"
  | .mintExceedsAudit .. => "mint_exceeds_audit"
  | .insufficientBalance .. => "insufficient_balance"
  | .unsupportedOperation .. => "unsupported_operation"
  | .invariantViolation _ => "invariant_violation"
  | .alreadyInitialized => "already_initialized"

/-- The refusal in words. -/
def LedgerError.message : LedgerError → String
  | .unauthorized account role =>
    s!"unauthorized: account {account.checksummed} is missing role {role.name}"
  | .invalidAmount fault => s!"invalid amount: {fault.message}"
  | .mintExceedsAudit totalSupply amount totalAudited =>
    s!"mint exceeds audit: total supply {Word.decimal totalSupply} + {Word.decimal amount} " ++
      s!"would exceed audited {Word.decimal totalAudited}"
  | .insufficientBalance account available required =>
    s!"insufficient balance: account {account.checksummed} holds {Word.decimal available}, " ++
      s!"needs {Word.decimal required}"
  | .unsupportedOperation operation version =>
    s!"operation {operation} is not supported by ledger logic v{version.toNat}"
  | .invariantViolation breach =>
    s!"invariant violation: [INVARIANT:{breach.name}] {breach.detail}"
  | .alreadyInitialized => "ledger already initialized"

/-- Why a deployment, an upgrade or a restoration was refused. -/
inductive UpgradeError where
  | incompatibleLayout (verdict : CompatibilityVerdict)
  /-- The logic sets up its state in a constructor, which never runs behind an upgradeable
  ledger. -/
  | notUpgradeSafe (implementation : String)
  | notUpgradeable
  | schema (error : SchemaError)
  | initialization (error : LedgerError)
deriving DecidableEq

/-- The refusal's code; the code of a refusal within it follows after a dot. -/
def UpgradeError.code : UpgradeError → String
  | .incompatibleLayout _ => "incompatible_layout"
  | .notUpgradeSafe _ => "not_upgrade_safe"
  | .notUpgradeable => "not_upgradeable"
  | .schema error => "schema." ++ error.code
  | .initialization error => "initialization." ++ error.code

/-- The refusal in words. -/
def UpgradeError.message : UpgradeError → String
  | .incompatibleLayout verdict =>
    "New storage layout is incompatible: " ++ verdict.reason.getD "unspecified"
  | .notUpgradeSafe implementation =>
    s!"implementation {implementation} is not upgrade safe: " ++
      "state is set up in a constructor; use an initializer"
  | .notUpgradeable => "ledger was deployed without upgrade support"
  | .schema error => error.message
  | .initialization error => s!"initialization failed: {error.message}"

end SlotLedger
