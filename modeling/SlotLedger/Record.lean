import SlotLedger.Document.Operation
import SlotLedger.Json.Reader

/-!
# Log records

What an operation log holds.  A log starts with one deployment; every later record is an operation
that was committed.

## Main definitions

* `Deployment`, `Deployment.deploy`: how the ledger of a log came about.
* `LogRecord`, `LogEntry`: a record and its position.
-/

namespace SlotLedger

/-- How a ledger came about: its implementation, its deployer and whether it can be upgraded. -/
structure Deployment where
  implementation : String
  deployer : Account
  upgradeable : Bool
deriving DecidableEq

namespace Deployment

/-- Find the implementation and deploy a fresh ledger. -/
def deploy (d : Deployment) (registry : Registry) : Except OperationError Ledger :=
  match registry.get? d.implementation with
  | none => .error (.unknownImplementation d.implementation)
  | some i =>
    let ledger :=
      if d.upgradeable then Ledger.deploy i.schema i.logic d.deployer
      else Ledger.deployFixed i.schema i.logic d.deployer
    ledger.mapError .upgrade

/-- A deployment in words. -/
def text (d : Deployment) : String :=
  d.implementation ++ " by " ++ d.deployer.checksummed ++ if d.upgradeable then "" else " (fixed)"

/-- A deployment; it can be upgraded unless the document says otherwise. -/
def read? (account? : Json → Option Account) (j : Json) : Option Deployment := do
  let r ← j.record? ["implementation", "deployer", "upgradeable"] .refused
  some
    { implementation := ← r.required "implementation" Json.string?
      deployer := ← r.required "deployer" account?
      upgradeable := ← r.defaulted "upgradeable" true Json.bool? }

/-- A deployment in a document. -/
def ofJson? (j : Json) : Option Deployment := read? Account.ofJson? j

/-- A deployment in a document that was read strictly. -/
def ofStrict? (j : Json) : Option Deployment := read? Account.ofStrict? j

/-- The deployment of a text. -/
def parse? (text : String) : Option Deployment := (Json.parseStrict? text).bind ofStrict?

/-- A deployment as a document. -/
def toJson (d : Deployment) : Json :=
  .object
    [("implementation", .string d.implementation), ("deployer", d.deployer.toJson),
      ("upgradeable", .bool d.upgradeable)]

end Deployment

/-- What happened to a ledger. -/
inductive LogRecord where
  | deploy (deployment : Deployment)
  | operation (operation : Operation)
deriving DecidableEq

/-- A record with its position in a log. -/
structure LogEntry where
  sequence : UInt64
  record : LogRecord
deriving DecidableEq

namespace LogEntry

/-- The first record of a log. -/
def deploy (deployment : Deployment) : LogEntry := ⟨1, .deploy deployment⟩

/-- A later record of a log. -/
def operation (sequence : UInt64) (operation : Operation) : LogEntry :=
  ⟨sequence, .operation operation⟩

/-- A record: its number beside a deployment or an operation. -/
def ofJson? (j : Json) : Option LogEntry := do
  let r ← j.record? ["sequence", "deploy", "operation"] .refused
  let sequence ← r.required "sequence" Json.uint64?
  match ← r.optional "deploy" Deployment.ofJson?, ← r.optional "operation" Operation.ofJson? with
  | some d, none => some ⟨sequence, .deploy d⟩
  | none, some o => some ⟨sequence, .operation o⟩
  | _, _ => none

/-- A record as a document. -/
def toJson (e : LogEntry) : Json :=
  let record :=
    match e.record with
    | .deploy d => ("deploy", d.toJson)
    | .operation o => ("operation", o.toJson)
  .object [("sequence", .natural e.sequence), record]

end LogEntry

end SlotLedger
