import SlotLedger.Document.Operation
import SlotLedger.Session

/-!
# Scenarios

A scenario is a deployment and a list of operations to be carried out by a session.  A refused
operation is an outcome like any other and the run goes on; a failure of the disk ends it.

## Main definitions

* `Scenario`, `Scenario.load`: scenarios and their files.
* `ScenarioReport`, `Scenario.run`: what became of the operations.
-/

namespace SlotLedger

/-- A deployment and operations. -/
structure Scenario where
  deployment : Deployment
  operations : List Operation
deriving DecidableEq

/-- Why a scenario was refused. -/
inductive ScenarioError where
  /-- The file cannot be read as text. -/
  | io
  /-- The text is no scenario. -/
  | json
deriving DecidableEq

/-- The error's code. -/
def ScenarioError.code : ScenarioError → String
  | .io => "io"
  | .json => "json"

/-- The error in words. -/
def ScenarioError.message : ScenarioError → String
  | .io => "scenario I/O"
  | .json => "scenario JSON"

/-- What became of an operation. -/
inductive StepOutcome where
  | committed (sequence : UInt64)
  | rejected (error : String)
deriving DecidableEq

/-- An operation of a scenario and what became of it. -/
structure StepReport where
  index : Nat
  kind : String
  outcome : StepOutcome
deriving DecidableEq

/-- What became of a scenario, and the ledger at its end. -/
structure ScenarioReport where
  steps : List StepReport
  implementation : String
  version : UInt32
  totalSupply : Amount
  totalAudited : Option Amount
  sequence : UInt64
  fingerprint : String
deriving DecidableEq

namespace StepReport

/-- Whether the operation was refused. -/
def isRejected (s : StepReport) : Bool :=
  match s.outcome with
  | .rejected _ => true
  | .committed _ => false

/-- A step as a document. -/
def toJson (s : StepReport) : Json :=
  let outcome : List (String × Json) :=
    match s.outcome with
    | .committed sequence => [("outcome", .string "committed"), ("sequence", .natural sequence)]
    | .rejected error => [("outcome", .string "rejected"), ("error", .string error)]
  .object ([("index", .natural (UInt64.ofNat s.index)), ("op", .string s.kind)] ++ outcome)

end StepReport

namespace ScenarioReport

/-- The number of refused operations. -/
def rejected (r : ScenarioReport) : Nat := r.steps.countP StepReport.isRejected

/-- A report as a document; its amounts are decimal numerals. -/
def toJson (r : ScenarioReport) : Json :=
  .object
    [("steps", .array (r.steps.map StepReport.toJson)),
      ("implementation", .string r.implementation), ("version", .ofUInt32 r.version),
      ("total_supply", .string (Word.decimal r.totalSupply)),
      ("total_audited", .ofOption (fun a => .string (Word.decimal a)) r.totalAudited),
      ("sequence", .natural r.sequence), ("fingerprint", .string r.fingerprint)]

end ScenarioReport

namespace Scenario

/-- A scenario in a document that was read strictly. -/
def ofStrict? (j : Json) : Option Scenario := do
  let r ← j.record? ["deployment", "operations"] .refused
  some
    { deployment := ← r.required "deployment" Deployment.ofStrict?
      operations := ← r.required "operations" (Json.list? Operation.ofJson?) }

/-- The scenario of a text. -/
def parse? (text : String) : Option Scenario := (Json.parseStrict? text).bind ofStrict?

/-- A scenario as a document. -/
def toJson (s : Scenario) : Json :=
  .object
    [("deployment", s.deployment.toJson),
      ("operations", .array (s.operations.map Operation.toJson))]

/-- The scenario in a file. -/
def load (disk : Disk) (path : Path) : Except ScenarioError Scenario :=
  match disk.readText? path with
  | none => .error .io
  | some text =>
    match parse? text with
    | none => .error .json
    | some s => .ok s

/-- Apply operations in order and report on each.  The first step has the given index; a failure
that is no refusal ends the run. -/
def steps (index : Nat) (session : Session) (disk : Disk) :
    List Operation → Except SessionError (List StepReport) × Session × Disk
  | [] => (.ok [], session, disk)
  | operation :: rest =>
    match session.apply disk operation with
    | (.ok sequence, session, disk) =>
      let (later, session, disk) := steps (index + 1) session disk rest
      (later.map (⟨index, operation.kind, .committed sequence⟩ :: ·), session, disk)
    -- A refusal left the ledger as it was, so the next operation finds it in order.
    | (.error (.rejected e), session, disk) =>
      let (later, session, disk) := steps (index + 1) session disk rest
      (later.map (⟨index, operation.kind, .rejected e.message⟩ :: ·), session, disk)
    | (.error e, session, disk) => (.error e, session, disk)

/-- The report of a session after the given steps. -/
def report (steps : List StepReport) (session : Session) : ScenarioReport :=
  { steps
    implementation := session.ledger.implementation
    version := session.ledger.version
    totalSupply := session.ledger.totalSupply
    totalAudited := session.ledger.totalAudited
    sequence := session.sequence
    fingerprint := session.fingerprint }

/-- Run operations through a session. -/
def run (session : Session) (disk : Disk) (operations : List Operation) :
    Except SessionError ScenarioReport × Session × Disk :=
  let (result, session, disk) := steps 0 session disk operations
  (result.map fun steps => report steps session, session, disk)

end Scenario

end SlotLedger
