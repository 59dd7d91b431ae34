import SlotLedger.Record

/-!
# Replay

A log holds only what was committed, so its records, carried out in order, give the ledger again.  A
record that is refused means that the log and the ledger's rules disagree; it is reported and never
passed over.

## Main definitions

* `Ledger.replay`: records on top of a ledger.
* `Ledger.rebuild`: the ledger of a whole log.
-/

namespace SlotLedger

/-- Why the records of a log give no ledger. -/
inductive ReplayError where
  | missingDeployment
  | unexpectedDeployment (sequence : UInt64)
  | deploy (error : OperationError)
  | rejected (sequence : UInt64) (error : OperationError)
deriving DecidableEq

/-- The error's code; the code of a refusal within it follows after a dot. -/
def ReplayError.code : ReplayError → String
  | .missingDeployment => "missing_deployment"
  | .unexpectedDeployment _ => "unexpected_deployment"
  | .deploy error => "deploy." ++ error.code
  | .rejected _ error => "rejected." ++ error.code

/-- The error in words. -/
def ReplayError.message : ReplayError → String
  | .missingDeployment => "operation log is empty or does not start with a deployment"
  | .unexpectedDeployment sequence => s!"unexpected deployment record at sequence {sequence.toNat}"
  | .deploy error => s!"deployment failed: {error.message}"
  | .rejected sequence error => s!"replay rejected record {sequence.toNat}: {error.message}"

namespace Ledger

/-- Carry out one record that follows a deployment. -/
def replayEntry (registry : Registry) (l : Ledger) (e : LogEntry) : Except ReplayError Ledger :=
  match e.record with
  | .deploy _ => .error (.unexpectedDeployment e.sequence)
  | .operation operation => (l.apply registry operation).mapError (.rejected e.sequence)

/-- Carry out records in order. -/
def replay (registry : Registry) (l : Ledger) (records : List LogEntry) :
    Except ReplayError Ledger :=
  records.foldlM (replayEntry registry) l

/-- The ledger of a log: its deployment and then its operations. -/
def rebuild (registry : Registry) : List LogEntry → Except ReplayError Ledger
  | ⟨_, .deploy deployment⟩ :: rest => do
    let l ← (deployment.deploy registry).mapError .deploy
    l.replay registry rest
  | _ => .error .missingDeployment

/-- The fingerprint of a log's ledger.  It is a function of the records and the registry alone, so
two replays cannot differ. -/
def rebuildFingerprint (registry : Registry) (records : List LogEntry) :
    Except ReplayError String :=
  (rebuild registry records).map fingerprint

/-- Records in two parts are carried out one part after the other. -/
theorem replay_append (registry : Registry) (l : Ledger) (first later : List LogEntry) :
    l.replay registry (first ++ later) =
      (l.replay registry first).bind fun m => m.replay registry later := by
  simp only [replay, List.foldlM_append]
  rfl

end Ledger

end SlotLedger
