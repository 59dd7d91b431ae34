import SlotLedger.Document.Value
import SlotLedger.Operation

/-!
# Operations in documents

An operation is an object with the member `op`, which names its kind, and the operation's arguments,
or an array of the kind and the arguments in order.  Members beside these are passed over, but they
have to be readable.  An envelope is an object that has the operation's members beside its own.
-/

namespace SlotLedger

namespace Operation

/-- The kinds in the order of their numbers. -/
def kinds : List String :=
  ["mint", "audit_report", "transfer", "grant_role", "revoke_role", "renounce_role", "upgrade"]

/-- The operation of a kind with the given arguments. -/
def ofArguments? (kind : String) (arguments : Json) : Option Operation :=
  match kind with
  | "mint" => do
    let r ← arguments.record? ["caller", "target", "amount"] .skipped
    some (.mint (← r.required "caller" Account.ofJson?) (← r.required "target" Account.ofJson?)
      (← r.required "amount" Amount.ofJson?))
  | "audit_report" => do
    let r ← arguments.record? ["caller", "amount"] .skipped
    some (.auditReport (← r.required "caller" Account.ofJson?)
      (← r.required "amount" Amount.ofJson?))
  | "transfer" => do
    let r ← arguments.record? ["caller", "to", "amount"] .skipped
    some (.transfer (← r.required "caller" Account.ofJson?) (← r.required "to" Account.ofJson?)
      (← r.required "amount" Amount.ofJson?))
  | "grant_role" => do
    let r ← arguments.record? ["caller", "role", "account"] .skipped
    some (.grantRole (← r.required "caller" Account.ofJson?) (← r.required "role" Role.ofContent?)
      (← r.required "account" Account.ofJson?))
  | "revoke_role" => do
    let r ← arguments.record? ["caller", "role", "account"] .skipped
    some (.revokeRole (← r.required "caller" Account.ofJson?) (← r.required "role" Role.ofContent?)
      (← r.required "account" Account.ofJson?))
  | "renounce_role" => do
    let r ← arguments.record? ["caller", "role"] .skipped
    some (.renounceRole (← r.required "caller" Account.ofJson?)
      (← r.required "role" Role.ofContent?))
  | "upgrade" => do
    let r ← arguments.record? ["implementation"] .skipped
    some (.upgrade (← r.required "implementation" Json.string?))
  | _ => none

/-- The operation of members among which exactly one is `op`, read by `kind?`. -/
def ofMembers? (kind? : Json → Option String) (members : List (String × Json)) :
    Option Operation :=
  match members.partition (·.1 == "op") with
  | ([(_, tag)], arguments) => do
    let kind ← kind? tag
    if Json.membersReadable arguments then ofArguments? kind (.object arguments) else none
  | _ => none

/-- An operation. -/
def ofJson? : Json → Option Operation
  | .object members => ofMembers? Json.string? members
  | .array (tag :: arguments) => do
    let kind ← tag.string?
    if Json.areReadable arguments then ofArguments? kind (.array arguments) else none
  | _ => none

/-- The members of an operation: its kind and its arguments. -/
def members : Operation → List (String × Json)
  | .mint caller target amount =>
    [("op", .string "mint"), ("caller", caller.toJson), ("target", target.toJson),
      ("amount", amount.toJson)]
  | .auditReport caller amount =>
    [("op", .string "audit_report"), ("caller", caller.toJson), ("amount", amount.toJson)]
  | .transfer caller receiver amount =>
    [("op", .string "transfer"), ("caller", caller.toJson), ("to", receiver.toJson),
      ("amount", amount.toJson)]
  | .grantRole caller role account =>
    [("op", .string "grant_role"), ("caller", caller.toJson), ("role", role.toJson),
      ("account", account.toJson)]
  | .revokeRole caller role account =>
    [("op", .string "revoke_role"), ("caller", caller.toJson), ("role", role.toJson),
      ("account", account.toJson)]
  | .renounceRole caller role =>
    [("op", .string "renounce_role"), ("caller", caller.toJson), ("role", role.toJson)]
  | .upgrade implementation =>
    [("op", .string "upgrade"), ("implementation", .string implementation)]

/-- An operation as a document. -/
def toJson (o : Operation) : Json := .object o.members

end Operation

namespace SequencedOperation

/-- The kind in an envelope: a name, or the number of one. -/
def kind? : Json → Option String
  | .string kind => some kind
  | .natural n => Operation.kinds[n.toNat]?
  | _ => none

/-- An operation with its sequence number. -/
def ofJson? : Json → Option SequencedOperation
  | .object members =>
    match members.partition (·.1 == "sequence") with
    | ([(_, sequence)], rest) => do
      some ⟨← sequence.uint64?, ← Operation.ofMembers? kind? rest⟩
    | _ => none
  | _ => none

/-- An operation with its sequence number as a document. -/
def toJson (e : SequencedOperation) : Json :=
  .object (("sequence", .natural e.sequence) :: e.operation.members)

end SequencedOperation

end SlotLedger
