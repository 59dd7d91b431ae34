import SlotLedger.Wire.Field

/-!
# Record messages

The messages of the operation log as the wire carries them: accounts, amounts and role names are
octets and texts that nobody has looked at yet.

A field that is absent is empty, zero or false, and such a value is not written.  Of a repeated
field the last one counts.  Of the kinds of a record the last one counts, and a kind that follows
itself adds its fields to those before.

## Main definitions

* `RecordKind`, `RecordMessage`: the messages.
* `RecordMessage.encode`, `RecordMessage.decode?`: their octets.
-/

namespace SlotLedger

/-- The kinds of record. -/
inductive RecordKind where
  | deploy (implementation : String) (deployer : Bytes) (upgradeable : Bool)
  | mint (caller target amount : Bytes)
  | auditReport (caller amount : Bytes)
  | transfer (caller receiver amount : Bytes)
  | grantRole (caller : Bytes) (role : String) (account : Bytes)
  | revokeRole (caller : Bytes) (role : String) (account : Bytes)
  | renounceRole (caller : Bytes) (role : String)
  | upgrade (implementation : String)
deriving DecidableEq

/-- A record. -/
structure RecordMessage where
  sequence : UInt64
  kind : Option RecordKind
deriving DecidableEq

namespace Wire

/-- Levels of nesting in a message. -/
def maxNesting : Nat := 100

/-! ## Writing -/

/-- A field of octets, unless it is empty. -/
def bytesField (number : Nat) (octets : Bytes) : List Field :=
  if octets.isEmpty then [] else [⟨number, .delimited octets⟩]

/-- A field of text, unless it is empty. -/
def textField (number : Nat) (text : String) : List Field := bytesField number (Bytes.utf8 text)

/-- A field of a number, unless it is zero. -/
def natField (number n : Nat) : List Field :=
  if n = 0 then [] else [⟨number, .varint n⟩]

/-- A field of a flag, unless it is false. -/
def flagField (number : Nat) (flag : Bool) : List Field := natField number flag.toNat

/-! ## Reading -/

/-- The octets of a field. -/
def Value.octets? : Value → Option Bytes
  | .delimited octets => some octets
  | _ => none

/-- The text of a field. -/
def Value.text? (v : Value) : Option String := v.octets?.bind Bytes.utf8?

/-- The number of a field. -/
def Value.nat? : Value → Option Nat
  | .varint n => some n
  | _ => none

/-- The flag of a field: any number but zero is true. -/
def Value.flag? (v : Value) : Option Bool := v.nat?.map (· != 0)

end Wire

namespace RecordKind

/-- The number of the record's field that holds the kind. -/
def number : RecordKind → Nat
  | .deploy .. => 2
  | .mint .. => 3
  | .auditReport .. => 4
  | .transfer .. => 5
  | .grantRole .. => 6
  | .revokeRole .. => 7
  | .renounceRole .. => 8
  | .upgrade _ => 9

/-- The kind of a number with every field absent. -/
def blank? : Nat → Option RecordKind
  | 2 => some (.deploy "" [] false)
  | 3 => some (.mint [] [] [])
  | 4 => some (.auditReport [] [])
  | 5 => some (.transfer [] [] [])
  | 6 => some (.grantRole [] "" [])
  | 7 => some (.revokeRole [] "" [])
  | 8 => some (.renounceRole [] "")
  | 9 => some (.upgrade "")
  | _ => none

/-- The fields of a kind in ascending order. -/
def fields : RecordKind → List Wire.Field
  | .deploy implementation deployer upgradeable =>
    Wire.textField 1 implementation ++ Wire.bytesField 2 deployer ++ Wire.flagField 3 upgradeable
  | .mint caller target amount =>
    Wire.bytesField 1 caller ++ Wire.bytesField 2 target ++ Wire.bytesField 3 amount
  | .auditReport caller amount => Wire.bytesField 1 caller ++ Wire.bytesField 2 amount
  | .transfer caller receiver amount =>
    Wire.bytesField 1 caller ++ Wire.bytesField 2 receiver ++ Wire.bytesField 3 amount
  | .grantRole caller role account =>
    Wire.bytesField 1 caller ++ Wire.textField 2 role ++ Wire.bytesField 3 account
  | .revokeRole caller role account =>
    Wire.bytesField 1 caller ++ Wire.textField 2 role ++ Wire.bytesField 3 account
  | .renounceRole caller role => Wire.bytesField 1 caller ++ Wire.textField 2 role
  | .upgrade implementation => Wire.textField 1 implementation

/-- A kind after one more field; a field of another number is passed over. -/
def take? (kind : RecordKind) (f : Wire.Field) : Option RecordKind :=
  match kind, f.number with
  | .deploy _ deployer upgradeable, 1 => f.value.text?.map (.deploy · deployer upgradeable)
  | .deploy implementation _ upgradeable, 2 =>
    f.value.octets?.map (.deploy implementation · upgradeable)
  | .deploy implementation deployer _, 3 => f.value.flag?.map (.deploy implementation deployer ·)
  | .mint _ target amount, 1 => f.value.octets?.map (.mint · target amount)
  | .mint caller _ amount, 2 => f.value.octets?.map (.mint caller · amount)
  | .mint caller target _, 3 => f.value.octets?.map (.mint caller target ·)
  | .auditReport _ amount, 1 => f.value.octets?.map (.auditReport · amount)
  | .auditReport caller _, 2 => f.value.octets?.map (.auditReport caller ·)
  | .transfer _ receiver amount, 1 => f.value.octets?.map (.transfer · receiver amount)
  | .transfer caller _ amount, 2 => f.value.octets?.map (.transfer caller · amount)
  | .transfer caller receiver _, 3 => f.value.octets?.map (.transfer caller receiver ·)
  | .grantRole _ role account, 1 => f.value.octets?.map (.grantRole · role account)
  | .grantRole caller _ account, 2 => f.value.text?.map (.grantRole caller · account)
  | .grantRole caller role _, 3 => f.value.octets?.map (.grantRole caller role ·)
  | .revokeRole _ role account, 1 => f.value.octets?.map (.revokeRole · role account)
  | .revokeRole caller _ account, 2 => f.value.text?.map (.revokeRole caller · account)
  | .revokeRole caller role _, 3 => f.value.octets?.map (.revokeRole caller role ·)
  | .renounceRole _ role, 1 => f.value.octets?.map (.renounceRole · role)
  | .renounceRole caller _, 2 => f.value.text?.map (.renounceRole caller ·)
  | .upgrade _, 1 => f.value.text?.map .upgrade
  | kind, _ => some kind

/-- A kind after the fields of one more message. -/
def takeAll? (kind : RecordKind) (octets : Bytes) : Option RecordKind := do
  (← Wire.decode (Wire.maxNesting - 1) octets).foldlM take? kind

end RecordKind

namespace RecordMessage

/-- A record with every field absent. -/
def blank : RecordMessage := ⟨0, none⟩

/-- The fields of a record in ascending order. -/
def fields (m : RecordMessage) : List Wire.Field :=
  Wire.natField 1 m.sequence.toNat ++
    match m.kind with
    | none => []
    | some kind => [⟨kind.number, .delimited (Wire.encode kind.fields)⟩]

/-- The octets of a record. -/
def encode (m : RecordMessage) : Bytes := Wire.encode m.fields

/-- The kind that a field of the given number adds to. -/
def kindAt? (m : RecordMessage) (number : Nat) : Option RecordKind :=
  match m.kind with
  | some kind => if kind.number = number then some kind else RecordKind.blank? number
  | none => RecordKind.blank? number

/-- A record after one more field; a field of another number is passed over. -/
def take? (m : RecordMessage) (f : Wire.Field) : Option RecordMessage :=
  if f.number = 1 then
    f.value.nat?.map fun n => { m with sequence := UInt64.ofNat n }
  else
    match m.kindAt? f.number with
    -- No kind has this number.
    | none => some m
    | some kind => do
      let kind ← kind.takeAll? (← f.value.octets?)
      some { m with kind := some kind }

/-- The record of the given octets. -/
def decode? (octets : Bytes) : Option RecordMessage := do
  (← Wire.decode Wire.maxNesting octets).foldlM take? blank

end RecordMessage

end SlotLedger
