import SlotLedger.Ledger.Stage

/-!
# Ledger logic

The exchangeable half of an implementation: what each operation does to an open transaction.  Logic
owns no state.  The standard behaviour is that of a capped or uncapped token; a version replaces the
methods in which it differs.

## Main definitions

* `Logic`: one version's methods.
* `Logic.bind`: the bindings of a logic in a schema.
* `Logic.standard`: the standard methods.
* `Logic.tokenV1`, `Logic.tokenV2`, `Logic.fixedToken`: the versions of the token.
-/

namespace SlotLedger

/-- How an implementation sets up its state. -/
inductive Initialization where
  /-- An initializer runs on the ledger's storage. -/
  | initializer
  /-- A constructor sets up state that no upgradeable ledger ever sees. -/
  | constructor
deriving DecidableEq, Repr

/-- What the operations of one implementation version do. -/
structure Logic where
  name : String
  version : UInt32
  initialization : Initialization
  /-- Whether the logic keeps the audited counter.  A schema declares the counter exactly for such
  logic. -/
  enforcesAuditCap : Bool
  /-- The initializer; the argument is the deployer. -/
  setUp : Account → Stage Unit
  /-- Create an amount for a target; the first argument is the caller. -/
  mint : Account → Account → Amount → Stage Unit
  /-- Raise the audited amount; the first argument is the caller. -/
  auditReport : Account → Amount → Stage Unit
  /-- Move an amount from the caller to a receiver. -/
  transfer : Account → Account → Amount → Stage Unit
  /-- Make an account a member of a role; the first argument is the caller. -/
  grantRole : Account → Role → Account → Stage Unit
  /-- End an account's membership in a role; the first argument is the caller. -/
  revokeRole : Account → Role → Account → Stage Unit
  /-- End the caller's membership in a role. -/
  renounceRole : Account → Role → Stage Unit

namespace Logic

/-- Find the fields of a logic in a schema.  A schema with an audited counter is refused by logic
that does not keep it. -/
def bind (l : Logic) (schema : Schema) : Except SchemaError Bindings := do
  let bindings ← Bindings.resolve schema l.enforcesAuditCap
  if bindings.totalAudited.isSome && !l.enforcesAuditCap then
    .error (.unenforcedField schema.name FieldName.totalAudited l.name)
  else
    .ok bindings

/-! ## Steps -/

/-- An account has to be a member of a role. -/
def requireRole (role : Role) (account : Account) : Stage Unit := do
  if ← Stage.read (·.hasRole role account) then
    return ()
  else
    Stage.fail (.unauthorized account role)

/-- The supply and an amount have to stay together at or below the audited amount, where there is
one. -/
def requireWithinAudit (amount : Amount) : Stage Unit := do
  match ← Stage.read View.totalAudited with
  | none => return ()
  | some totalAudited =>
    let totalSupply ← Stage.read View.totalSupply
    if totalSupply.toNat + amount.toNat ≤ totalAudited.toNat then
      return ()
    else
      Stage.fail (.mintExceedsAudit totalSupply amount totalAudited)

/-- Add an amount to a balance and to the supply. -/
def credit (target : Account) (amount : Amount) : Stage Unit := do
  let _ ← Stage.amount (Amount.requirePositive amount)
  let balance ← Stage.amount (Amount.checkedAdd (← Stage.read (·.balanceOf target)) amount)
  let supply ← Stage.amount (Amount.checkedAdd (← Stage.read View.totalSupply) amount)
  Stage.edit (.balance target balance)
  Stage.edit (.totalSupply supply)

/-! ## Standard methods -/

/-- The deployer becomes admin and minter, once. -/
def standardSetUp (deployer : Account) : Stage Unit := do
  if ← Stage.read View.isInitialized then
    Stage.fail .alreadyInitialized
  else
    Stage.edit .initialized
    Stage.edit (.role .defaultAdmin deployer true)
    Stage.edit (.role .minter deployer true)

/-- A minter creates a positive amount within the audited amount. -/
def standardMint (caller target : Account) (amount : Amount) : Stage Unit := do
  requireRole .minter caller
  let _ ← Stage.amount (Amount.requirePositive amount)
  requireWithinAudit amount
  credit target amount

/-- There is no counter to raise. -/
def unsupportedAuditReport (version : UInt32) (_ : Account) (_ : Amount) : Stage Unit :=
  Stage.fail (.unsupportedOperation "audit_report" version)

/-- The caller gives a positive amount of its balance to the receiver. -/
def standardTransfer (caller receiver : Account) (amount : Amount) : Stage Unit := do
  let _ ← Stage.amount (Amount.requirePositive amount)
  let available ← Stage.read (·.balanceOf caller)
  if available < amount then
    Stage.fail (.insufficientBalance caller available amount)
  else
    let left ← Stage.amount (Amount.checkedSub available amount)
    Stage.edit (.balance caller left)
    -- Read after the debit: the receiver may be the caller.
    let received ← Stage.amount (Amount.checkedAdd (← Stage.read (·.balanceOf receiver)) amount)
    Stage.edit (.balance receiver received)

/-- A member of the administering role sets an account's membership. -/
def setRole (member : Bool) (caller : Account) (role : Role) (account : Account) : Stage Unit := do
  requireRole role.administrator caller
  Stage.edit (.role role account member)

/-- The caller leaves a role. -/
def standardRenounceRole (caller : Account) (role : Role) : Stage Unit :=
  Stage.edit (.role role caller false)

/-- A logic with the standard methods. -/
def standard (name : String) (version : UInt32) : Logic where
  name := name
  version := version
  initialization := .initializer
  enforcesAuditCap := false
  setUp := standardSetUp
  mint := standardMint
  auditReport := unsupportedAuditReport version
  transfer := standardTransfer
  grantRole := setRole true
  revokeRole := setRole false
  renounceRole := standardRenounceRole

/-! ## Versions of the token -/

/-- An auditor raises the audited amount; a report of zero changes nothing. -/
def countedAuditReport (version : UInt32) (caller : Account) (amount : Amount) : Stage Unit := do
  requireRole .audit caller
  if amount = 0 then
    return ()
  else
    let current ← Stage.read fun v => v.totalAudited.getD 0
    let next ← Stage.amount (Amount.checkedAdd current amount)
    if ← Stage.setTotalAudited next then
      return ()
    else
      Stage.fail (.unsupportedOperation "audit_report" version)

/-- The first upgradeable version: minting without a cap. -/
def tokenV1 : Logic := standard "TokenUpgradeableV1" 1

/-- The second version: audit reports raise the cap that minting may not exceed. -/
def tokenV2 : Logic :=
  { standard "TokenUpgradeableV2" 2 with
    enforcesAuditCap := true
    auditReport := countedAuditReport 2 }

/-- The token that cannot be upgraded: the first version with a constructor. -/
def fixedToken : Logic := { standard "Token" 1 with initialization := .constructor }

end Logic

end SlotLedger
