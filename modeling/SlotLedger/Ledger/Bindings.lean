import SlotLedger.Layout.Schema
import SlotLedger.Storage

/-!
# Bindings

Where a schema keeps the ledger's fields, and the ledger's state as it is read through them.

## Main definitions

* `Bindings`, `Bindings.resolve`: the base slots of the ledger's fields under a schema.
* `Bindings.balanceSlot`, `Bindings.roleSlot`: the cells of accounts and members.
* `View`: any source of words, read as balances, supply, audited amount and roles.
-/

namespace SlotLedger

namespace FieldName

/-- The field that tells whether the initializer has run. -/
def initialized : String := "_initialized"

/-- The field of balances by account. -/
def balances : String := "_balances"

/-- The field of the total supply. -/
def totalSupply : String := "_totalSupply"

/-- The field of members by role. -/
def roles : String := "_roles"

/-- The field of the audited amount. -/
def totalAudited : String := "_totalAudited"

end FieldName

/-- The type of a mapping from accounts to amounts. -/
def balancesType : SemanticType := .mapping .address .uint256

/-- The type of a mapping from roles to their members. -/
def rolesType : SemanticType := .mapping .bytes32 (.mapping .address .bool)

/-- The base slots of the ledger's fields under one schema. -/
structure Bindings where
  initialized : Slot
  balances : Slot
  totalSupply : Slot
  roles : Slot
  /-- Present exactly where the schema declares the audited counter. -/
  totalAudited : Option Slot
deriving DecidableEq

namespace Bindings

/-- The base slot of a field of the given name and type. -/
def slotOf (schema : Schema) (name : String) (expected : SemanticType) :
    Except SchemaError Slot :=
  match schema.field? name with
  | none => .error (.missingField schema.name name)
  | some field =>
    if field.semanticType = expected then .ok field.slotIndex.slot
    else .error (.fieldTypeMismatch schema.name name expected field.semanticType)

/-- The base slot of the audited counter, if the schema has one.  It must have one where the
counter is required. -/
def auditedSlotOf (schema : Schema) (required : Bool) : Except SchemaError (Option Slot) :=
  match schema.field? FieldName.totalAudited with
  | some _ => (slotOf schema FieldName.totalAudited .uint256).map some
  | none => if required then .error (.missingField schema.name FieldName.totalAudited) else .ok none

/-- Find every field of the ledger in a schema, the audited counter first. -/
def resolve (schema : Schema) (requireAudit : Bool) : Except SchemaError Bindings := do
  -- Of several faults the one of the counter is named.
  let totalAudited ← auditedSlotOf schema requireAudit
  let initialized ← slotOf schema FieldName.initialized .uint8
  let balances ← slotOf schema FieldName.balances balancesType
  let totalSupply ← slotOf schema FieldName.totalSupply .uint256
  let roles ← slotOf schema FieldName.roles rolesType
  return { initialized, balances, totalSupply, roles, totalAudited }

/-- The cell of an account's balance. -/
def balanceSlot (b : Bindings) (account : Account) : Slot := mappingSlot b.balances account.key

/-- The cell of an account's membership in a role. -/
def roleSlot (b : Bindings) (role : Role) (account : Account) : Slot :=
  mappingSlot (mappingSlot b.roles role.key) account.key

end Bindings

/-- A source of words read as the state of a ledger. -/
structure View where
  bindings : Bindings
  load : Slot → Word

namespace View

/-- The balance of an account. -/
def balanceOf (v : View) (account : Account) : Amount := v.load (v.bindings.balanceSlot account)

/-- The total supply. -/
def totalSupply (v : View) : Amount := v.load v.bindings.totalSupply

/-- The audited amount, where there is a counter for it. -/
def totalAudited (v : View) : Option Amount := v.bindings.totalAudited.map v.load

/-- Whether an account is a member of a role. -/
def hasRole (v : View) (role : Role) (account : Account) : Bool :=
  v.load (v.bindings.roleSlot role account) != 0

/-- Whether the initializer has run. -/
def isInitialized (v : View) : Bool := v.load v.bindings.initialized != 0

end View

end SlotLedger
