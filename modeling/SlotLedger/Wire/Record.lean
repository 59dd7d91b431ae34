import SlotLedger.Record
import SlotLedger.Wire.Message

/-!
# Records on the wire

Log records as messages and back.  Every record is written; a message is a record only if each of
its accounts has twenty octets, its amount thirty-two and its role a known name, so that a damaged
message is never read as another operation.
-/

namespace SlotLedger

/-- Why a message is no record. -/
inductive DecodeError where
  | missingKind (sequence : UInt64)
  | invalidLength (sequence : UInt64) (field : String) (expected found : Nat)
  | unknownRole (sequence : UInt64) (role : String)
deriving DecidableEq

/-- The error's code. -/
def DecodeError.code : DecodeError → String
  | .missingKind _ => "missing_kind"
  | .invalidLength .. => "invalid_length"
  | .unknownRole .. => "unknown_role"

/-- The error in words. -/
def DecodeError.message : DecodeError → String
  | .missingKind sequence => s!"record {sequence.toNat} has no kind"
  | .invalidLength sequence field expected found =>
    s!"record {sequence.toNat}: field {field} has {found} bytes, expected {expected}"
  | .unknownRole sequence role =>
    s!"record {sequence.toNat}: unknown role {Text.quoted role}"

namespace LogEntry

/-- The kind of message that carries an operation. -/
def operationKind : Operation → RecordKind
  | .mint caller target amount => .mint caller.bytes target.bytes (Word.bytes amount)
  | .auditReport caller amount => .auditReport caller.bytes (Word.bytes amount)
  | .transfer caller receiver amount =>
    .transfer caller.bytes receiver.bytes (Word.bytes amount)
  | .grantRole caller role account => .grantRole caller.bytes role.name account.bytes
  | .revokeRole caller role account => .revokeRole caller.bytes role.name account.bytes
  | .renounceRole caller role => .renounceRole caller.bytes role.name
  | .upgrade implementation => .upgrade implementation

/-- The kind of message that carries a record. -/
def recordKind : LogRecord → RecordKind
  | .deploy d => .deploy d.implementation d.deployer.bytes d.upgradeable
  | .operation operation => operationKind operation

/-- The message that carries a record. -/
def toMessage (e : LogEntry) : RecordMessage := ⟨e.sequence, some (recordKind e.record)⟩

/-- An account of twenty octets. -/
def accountOf (sequence : UInt64) (field : String) (octets : Bytes) : Except DecodeError Account :=
  if octets.length = 20 then .ok (Account.ofBytes octets)
  else .error (.invalidLength sequence field 20 octets.length)

/-- An amount of thirty-two octets. -/
def amountOf (sequence : UInt64) (octets : Bytes) : Except DecodeError Amount :=
  if octets.length = 32 then .ok (Word.ofBytes octets)
  else .error (.invalidLength sequence "amount" 32 octets.length)

/-- A role by its name. -/
def roleOf (sequence : UInt64) (name : String) : Except DecodeError Role :=
  match Role.ofName? name with
  | some role => .ok role
  | none => .error (.unknownRole sequence name)

/-- The record that a message of some kind carries. -/
def ofKind (sequence : UInt64) : RecordKind → Except DecodeError LogRecord
  | .deploy implementation deployer upgradeable => do
    let deployer ← accountOf sequence "deployer" deployer
    return .deploy { implementation, deployer, upgradeable }
  | .mint caller target amount => do
    let caller ← accountOf sequence "caller" caller
    let target ← accountOf sequence "target" target
    return .operation (.mint caller target (← amountOf sequence amount))
  | .auditReport caller amount => do
    let caller ← accountOf sequence "caller" caller
    return .operation (.auditReport caller (← amountOf sequence amount))
  | .transfer caller receiver amount => do
    let caller ← accountOf sequence "caller" caller
    let receiver ← accountOf sequence "to" receiver
    return .operation (.transfer caller receiver (← amountOf sequence amount))
  | .grantRole caller role account => do
    let caller ← accountOf sequence "caller" caller
    let role ← roleOf sequence role
    return .operation (.grantRole caller role (← accountOf sequence "account" account))
  | .revokeRole caller role account => do
    let caller ← accountOf sequence "caller" caller
    let role ← roleOf sequence role
    return .operation (.revokeRole caller role (← accountOf sequence "account" account))
  | .renounceRole caller role => do
    let caller ← accountOf sequence "caller" caller
    return .operation (.renounceRole caller (← roleOf sequence role))
  | .upgrade implementation => return .operation (.upgrade implementation)

/-- The record that a message carries. -/
def ofMessage (m : RecordMessage) : Except DecodeError LogEntry :=
  match m.kind with
  | none => .error (.missingKind m.sequence)
  | some kind => (ofKind m.sequence kind).map (⟨m.sequence, ·⟩)

/-- The octets of a record's message. -/
def encode (e : LogEntry) : Bytes := e.toMessage.encode

end LogEntry

end SlotLedger
