import SlotLedger.Ledger.Basic

/-!
# Operations

One mutating call as data: who calls, what, with which arguments.  An upgrade names its
implementation, which a registry resolves.
-/

namespace SlotLedger

/-- One mutating call. -/
inductive Operation where
  | mint (caller target : Account) (amount : Amount)
  | auditReport (caller : Account) (amount : Amount)
  | transfer (caller receiver : Account) (amount : Amount)
  | grantRole (caller : Account) (role : Role) (account : Account)
  | revokeRole (caller : Account) (role : Role) (account : Account)
  | renounceRole (caller : Account) (role : Role)
  | upgrade (implementation : String)
deriving DecidableEq

/-- An operation with its position in a log. -/
structure SequencedOperation where
  sequence : UInt64
  operation : Operation
deriving DecidableEq

/-- Why an operation was refused. -/
inductive OperationError where
  | ledger (error : LedgerError)
  | upgrade (error : UpgradeError)
  | unknownImplementation (name : String)
deriving DecidableEq

/-- The refusal's code; the code of a refusal within it follows after a dot. -/
def OperationError.code : OperationError → String
  | .ledger error => "ledger." ++ error.code
  | .upgrade error => "upgrade." ++ error.code
  | .unknownImplementation _ => "unknown_implementation"

/-- The refusal in words. -/
def OperationError.message : OperationError → String
  | .ledger error => error.message
  | .upgrade error => error.message
  | .unknownImplementation name => s!"unknown implementation: {name}"

/-- The operation's name in documents and reports. -/
def Operation.kind : Operation → String
  | .mint .. => "mint"
  | .auditReport .. => "audit_report"
  | .transfer .. => "transfer"
  | .grantRole .. => "grant_role"
  | .revokeRole .. => "revoke_role"
  | .renounceRole .. => "renounce_role"
  | .upgrade _ => "upgrade"

namespace Ledger

/-- Apply one operation; the implementation of an upgrade is looked up in the registry. -/
def apply (l : Ledger) (registry : Registry) : Operation → Except OperationError Ledger
  | .mint caller target amount => (l.mint caller target amount).mapError .ledger
  | .auditReport caller amount => (l.auditReport caller amount).mapError .ledger
  | .transfer caller receiver amount => (l.transfer caller receiver amount).mapError .ledger
  | .grantRole caller role account => (l.grantRole caller role account).mapError .ledger
  | .revokeRole caller role account => (l.revokeRole caller role account).mapError .ledger
  | .renounceRole caller role => (l.renounceRole caller role).mapError .ledger
  | .upgrade implementation =>
    match registry.get? implementation with
    | none => .error (.unknownImplementation implementation)
    | some target => ((l.upgrade target.schema target.logic).map Prod.fst).mapError .upgrade

end Ledger

end SlotLedger
