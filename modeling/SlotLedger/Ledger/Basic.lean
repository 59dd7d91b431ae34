import SlotLedger.Ledger.Fingerprint
import SlotLedger.Ledger.Implementation
import SlotLedger.Ledger.Invariant

/-!
# Ledgers

A ledger owns its active schema, its active logic, their bindings, its storage and the history of
its upgrades.  An operation is staged, passes the invariant gate and is then committed as a whole; a
refused operation leaves the ledger as it was.

## Main definitions

* `Ledger.deploy`, `Ledger.deployFixed`, `Ledger.restore`: how ledgers come about.
* `Ledger.upgrade`: a new schema and logic over the same storage.
* `Ledger.execute`: one operation, from staging to commit.
-/

namespace SlotLedger

/-- One completed upgrade. -/
structure UpgradeRecord where
  fromImplementation : String
  fromVersion : UInt32
  toImplementation : String
  toVersion : UInt32
  appendedFields : List Field
deriving DecidableEq, Repr

/-- The parts of a ledger that an image of it keeps. -/
structure LedgerParts where
  schema : Schema
  logic : Logic
  storage : Storage
  history : List UpgradeRecord
  upgradeable : Bool

/-- One ledger. -/
structure Ledger where
  schema : Schema
  logic : Logic
  bindings : Bindings
  storage : Storage
  history : List UpgradeRecord
  upgradeable : Bool

namespace Ledger

/-! ## Reads -/

/-- The committed state. -/
def view (l : Ledger) : View := ⟨l.bindings, l.storage.load⟩

/-- The balance of an account. -/
def balanceOf (l : Ledger) (account : Account) : Amount := l.view.balanceOf account

/-- The total supply. -/
def totalSupply (l : Ledger) : Amount := l.view.totalSupply

/-- The audited amount, once a schema with the counter is active. -/
def totalAudited (l : Ledger) : Option Amount := l.view.totalAudited

/-- Whether an account is a member of a role. -/
def hasRole (l : Ledger) (role : Role) (account : Account) : Bool := l.view.hasRole role account

/-- The name of the active implementation, which is that of its schema. -/
def implementation (l : Ledger) : String := l.schema.name

/-- The version of the active schema. -/
def version (l : Ledger) : UInt32 := l.schema.version

/-- The digest of the active schema's identity and of the storage. -/
def fingerprint (l : Ledger) : String := canonicalDigest l.schema l.storage

/-- The parts an image keeps. -/
def snapshot (l : Ledger) : LedgerParts :=
  ⟨l.schema, l.logic, l.storage, l.history, l.upgradeable⟩

/-! ## Coming about -/

/-- Logic behind an upgradeable ledger has to use an initializer. -/
def requireUpgradeSafe (logic : Logic) : Except UpgradeError Unit :=
  match logic.initialization with
  | .initializer => .ok ()
  | .constructor => .error (.notUpgradeSafe logic.name)

/-- Set up a fresh ledger: check the schema, bind the logic, run its initializer over empty storage
and commit what it staged. -/
def found (schema : Schema) (logic : Logic) (deployer : Account) (upgradeable : Bool) :
    Except UpgradeError Ledger := do
  schema.validate.mapError .schema
  let bindings ← (logic.bind schema).mapError .schema
  -- The gate sees the initializer's writes too, so that no ledger starts outside its invariants.
  let (result, tx) := (logic.setUp deployer).run (.start .empty bindings)
  result.mapError .initialization
  (tx.validate bindings.totalAudited.isSome).mapError .initialization
  return { schema, logic, bindings, storage := tx.base.apply tx.writes, history := [], upgradeable }

/-- Deploy a ledger that can be upgraded. -/
def deploy (schema : Schema) (logic : Logic) (deployer : Account) : Except UpgradeError Ledger := do
  requireUpgradeSafe logic
  found schema logic deployer true

/-- Deploy a ledger that cannot be upgraded; any logic will do. -/
def deployFixed (schema : Schema) (logic : Logic) (deployer : Account) :
    Except UpgradeError Ledger :=
  found schema logic deployer false

/-- A ledger around the given parts.  Its storage has to be initialized under its schema. -/
def restore (s : LedgerParts) : Except UpgradeError Ledger := do
  if s.upgradeable then requireUpgradeSafe s.logic
  s.schema.validate.mapError .schema
  let bindings ← (s.logic.bind s.schema).mapError .schema
  if (View.mk bindings s.storage.load).isInitialized then
    return ⟨s.schema, s.logic, bindings, s.storage, s.history, s.upgradeable⟩
  else
    throw (.initialization (.invariantViolation (.initialized s.schema.name)))

/-! ## Upgrades -/

/-- Whether storage could be taken over by a new schema; nothing changes. -/
def validateUpgrade (l : Ledger) (schema : Schema) : CompatibilityVerdict :=
  l.schema.checkUpgrade schema

/-- Zero the slots of appended fields.  A mapping is left alone: its entries live at hashed slots
that no earlier layout could address. -/
def clearAppended (storage : Storage) (fields : List Field) : Storage :=
  fields.foldl
    (fun storage f =>
      if f.semanticType.isMapping then storage
      else storage.clearRange f.slotIndex.slot f.slotEnd.slot)
    storage

/-- Put a new schema and logic in place over the same storage, with the record of the step. -/
def upgrade (l : Ledger) (schema : Schema) (logic : Logic) :
    Except UpgradeError (Ledger × UpgradeRecord) := do
  if !l.upgradeable then throw .notUpgradeable
  requireUpgradeSafe logic
  -- The verdict is given before the new schema is checked on its own.
  let verdict := l.schema.checkUpgrade schema
  if !verdict.isAllowed then throw (.incompatibleLayout verdict)
  schema.validate.mapError .schema
  let bindings ← (logic.bind schema).mapError .schema
  let record : UpgradeRecord :=
    { fromImplementation := l.schema.name
      fromVersion := l.schema.version
      toImplementation := schema.name
      toVersion := schema.version
      appendedFields := verdict.appendedFields }
  let ledger : Ledger :=
    { schema
      logic
      bindings
      storage := clearAppended l.storage verdict.appendedFields
      history := l.history ++ [record]
      upgradeable := l.upgradeable }
  return (ledger, record)

/-! ## Operations -/

/-- Stage an operation, pass it through the gate and commit it. -/
def execute (l : Ledger) (operation : Logic → Stage Unit) : Except LedgerError Ledger := do
  let (result, tx) := (operation l.logic).run (.start l.storage l.bindings)
  result
  tx.validate l.bindings.totalAudited.isSome
  return { l with storage := l.storage.apply tx.writes }

/-- Create an amount for a target. -/
def mint (l : Ledger) (caller target : Account) (amount : Amount) : Except LedgerError Ledger :=
  l.execute fun logic => logic.mint caller target amount

/-- Raise the audited amount. -/
def auditReport (l : Ledger) (caller : Account) (amount : Amount) : Except LedgerError Ledger :=
  l.execute fun logic => logic.auditReport caller amount

/-- Move an amount from the caller to a receiver. -/
def transfer (l : Ledger) (caller receiver : Account) (amount : Amount) :
    Except LedgerError Ledger :=
  l.execute fun logic => logic.transfer caller receiver amount

/-- Make an account a member of a role. -/
def grantRole (l : Ledger) (caller : Account) (role : Role) (account : Account) :
    Except LedgerError Ledger :=
  l.execute fun logic => logic.grantRole caller role account

/-- End an account's membership in a role. -/
def revokeRole (l : Ledger) (caller : Account) (role : Role) (account : Account) :
    Except LedgerError Ledger :=
  l.execute fun logic => logic.revokeRole caller role account

/-- End the caller's membership in a role. -/
def renounceRole (l : Ledger) (caller : Account) (role : Role) : Except LedgerError Ledger :=
  l.execute fun logic => logic.renounceRole caller role

end Ledger

end SlotLedger
