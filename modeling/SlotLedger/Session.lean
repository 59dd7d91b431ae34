import SlotLedger.Config
import SlotLedger.OperationLog
import SlotLedger.Replay
import SlotLedger.Snapshot.Directory

/-!
# Sessions

A session is a ledger with a log and snapshots in a directory of its own.  An operation is first
committed by the ledger and then added to the log: what the ledger refuses never reaches the log,
and what the log holds was committed.

If a record cannot be added, the ledger is ahead of its log.  The session then rebuilds the ledger
from the log, and until a rebuild succeeds it applies nothing more.

## Main definitions

* `Session.create`, `Session.openAt`, `Session.openOrCreate`: how sessions come about.
* `Session.apply`, `Session.snapshot`, `Session.replayAll`: what a session does.
* `SharedSession`: a session behind a lock.
-/

namespace SlotLedger

/-- A ledger with its log and its snapshots. -/
structure Session where
  id : String
  /-- The directory of the session's files. -/
  directory : Path
  registry : Registry
  ledger : Ledger
  log : OperationLog
  /-- A snapshot is written after every so many records, and never if this is zero. -/
  snapshotInterval : UInt64
  /-- The number of the last record the ledger includes. -/
  sequence : UInt64
  /-- Whether the ledger is ahead of its log. -/
  diverged : Bool

/-- Why a session refused. -/
inductive SessionError where
  | alreadyExists (session : String)
  | notFound (session : String)
  | rejected (error : OperationError)
  | log (error : LogError)
  | replay (error : ReplayError)
  | snapshot (error : SnapshotError)
  | deploymentMismatch (session : String) (logged requested : Deployment)
  | diverged (session : String)
  | lockPoisoned
deriving DecidableEq

/-- The error's code; the code of an error within it follows after a dot. -/
def SessionError.code : SessionError → String
  | .alreadyExists _ => "already_exists"
  | .notFound _ => "not_found"
  | .rejected error => "rejected." ++ error.code
  | .log error => "store." ++ error.code
  | .replay error => "replay." ++ error.code
  | .snapshot error => "snapshot." ++ error.code
  | .deploymentMismatch .. => "deployment_mismatch"
  | .diverged _ => "diverged"
  | .lockPoisoned => "lock_poisoned"

/-- The error in words. -/
def SessionError.message : SessionError → String
  | .alreadyExists session => s!"session {session} already has an operation log"
  | .notFound session => s!"session {session} has no operation log"
  | .rejected error => error.message
  | .log error => error.message
  | .replay error => error.message
  | .snapshot error => error.message
  | .deploymentMismatch session logged requested =>
    s!"session {session} was deployed as {logged.text}, not {requested.text}"
  | .diverged session =>
    s!"session {session} is out of step with its operation log; replay it before applying more"
  | .lockPoisoned => "session lock poisoned"

namespace Session

/-- The file of the log in a session's directory. -/
def logPath (directory : Path) : Path := directory.join "operations.log"

/-- The snapshots in a session's directory. -/
def snapshotPath (directory : Path) : Path := directory.join "snapshots"

/-! ## Coming about -/

/-- A new session: deploy a ledger and log its deployment.  There must not be a log with records. -/
def create (disk : Disk) (base : Path) (id : String) (snapshotInterval : UInt64)
    (registry : Registry) (deployment : Deployment) : Except SessionError Session × Disk :=
  let directory := base.join id
  match OperationLog.openAt disk (logPath directory) with
  | (.error e, disk) => (.error (.log e), disk)
  | (.ok log, disk) =>
    if log.lastSequence ≠ 0 then (.error (.alreadyExists id), disk)
    else
      match deployment.deploy registry with
      | .error e => (.error (.rejected e), disk)
      | .ok ledger =>
        match log.append disk (.deploy deployment) with
        | .error e => (.error (.log e), disk)
        | .ok (log, disk) =>
          let session : Session :=
            { id, directory, registry, ledger, log, snapshotInterval, sequence := 1
              diverged := false }
          (.ok session, disk)

/-- The ledger of the latest snapshot and the records after it; `none` if there is no snapshot or if
it is ahead of the records. -/
def ledgerOfSnapshot (disk : Disk) (directory : Path) (records : List LogEntry)
    (registry : Registry) : Except SessionError (Option Ledger) := do
  match ← (Snapshot.latest disk (snapshotPath directory)).mapError .snapshot with
  | none => return none
  | some s =>
    -- A snapshot ahead of the log holds operations that the log never saw.
    if records.length < s.sequence.toNat then return none
    else
      let l ← (s.restore registry).mapError .snapshot
      some <$> (l.replay registry (records.drop s.sequence.toNat)).mapError .replay

/-- The ledger of a log's records, from a snapshot if one can be used and from the records alone
otherwise. -/
def ledgerOfRecords (disk : Disk) (directory : Path) (records : List LogEntry)
    (registry : Registry) : Except ReplayError Ledger :=
  match ledgerOfSnapshot disk directory records registry with
  | .ok (some l) => .ok l
  -- Snapshots only save time, so one that cannot be used is no reason to refuse.
  | _ => Ledger.rebuild registry records

/-- Open a session that has a log. -/
def openAt (disk : Disk) (base : Path) (id : String) (snapshotInterval : UInt64)
    (registry : Registry) : Except SessionError Session × Disk :=
  let directory := base.join id
  match OperationLog.openAt disk (logPath directory) with
  | (.error e, disk) => (.error (.log e), disk)
  | (.ok log, disk) =>
    let result := do
      if log.lastSequence = 0 then throw (.notFound id)
      let records ← (log.load disk).mapError .log
      let ledger ← (ledgerOfRecords disk directory records registry).mapError .replay
      return { id, directory, registry, ledger, log, snapshotInterval, sequence := log.lastSequence
               diverged := false }
    (result, disk)

/-! ## Reads -/

/-- The records of the log. -/
def records (s : Session) (disk : Disk) : Except SessionError (List LogEntry) :=
  (s.log.load disk).mapError .log

/-- The deployment in the log. -/
def deployment (s : Session) (disk : Disk) : Except SessionError Deployment := do
  match ← s.records disk with
  | ⟨_, .deploy deployment⟩ :: _ => return deployment
  | _ => throw (.replay .missingDeployment)

/-- The fingerprint of the ledger. -/
def fingerprint (s : Session) : String := s.ledger.fingerprint

/-! ## Steps -/

/-- Write a snapshot of the ledger under the session's number. -/
def snapshot (s : Session) (disk : Disk) : Except SessionError Path × Disk :=
  let (result, disk) := Snapshot.save disk (snapshotPath s.directory) s.sequence s.ledger
  (result.mapError .snapshot, disk)

/-- Rebuild the ledger from the log alone.  After this the session is in step again. -/
def replayAll (s : Session) (disk : Disk) : Except SessionError Session := do
  let records ← s.records disk
  let ledger ← (Ledger.rebuild s.registry records).mapError .replay
  let sequence := (records.getLast?.map LogEntry.sequence).getD 0
  return { s with ledger, sequence, diverged := false }

/-- The session after a committed operation could not be logged: rebuilt from the log, or ahead of
it if that fails too. -/
def recover (s : Session) (disk : Disk) : Session :=
  match s.replayAll disk with
  | .ok rebuilt => rebuilt
  | .error _ => { s with diverged := true }

/-- Whether a snapshot is due after the record of the given number. -/
def isSnapshotDue (s : Session) (sequence : UInt64) : Bool :=
  s.snapshotInterval != 0 && sequence % s.snapshotInterval == 0

/-- Commit an operation, log it and write a snapshot if one is due.  The result is the number of the
record. -/
def apply (s : Session) (disk : Disk) (operation : Operation) :
    Except SessionError UInt64 × Session × Disk :=
  if s.diverged then (.error (.diverged s.id), s, disk)
  else
    match s.ledger.apply s.registry operation with
    | .error e => (.error (.rejected e), s, disk)
    | .ok ledger =>
      -- From here on the ledger is one operation ahead, until the log has it too.
      let sequence := s.sequence + 1
      let committed := { s with ledger }
      match s.log.append disk (.operation sequence operation) with
      | .error e => (.error (.log e), committed.recover disk, disk)
      | .ok (log, disk) =>
        let logged := { committed with log, sequence }
        if s.isSnapshotDue sequence then
          -- The operation stands even if its snapshot cannot be written.
          match logged.snapshot disk with
          | (.error e, disk) => (.error e, logged, disk)
          | (.ok _, disk) => (.ok sequence, logged, disk)
        else
          (.ok sequence, logged, disk)

/-! ## Configured sessions -/

/-- The configured session, created if it has no log yet.  A session that is there must have come
about by the same deployment. -/
def openOrCreate (disk : Disk) (base : Path) (config : Config) (registry : Registry)
    (deployment : Deployment) : Except SessionError Session × Disk :=
  let base := base.join config.dataDirectory
  match openAt disk base config.sessionId config.snapshotInterval registry with
  | (.error (.notFound _), disk) =>
    create disk base config.sessionId config.snapshotInterval registry deployment
  | (.error e, disk) => (.error e, disk)
  | (.ok session, disk) =>
    let result := do
      let logged ← session.deployment disk
      if logged = deployment then return session
      else throw (.deploymentMismatch config.sessionId logged deployment)
    (result, disk)

end Session

/-! ## Shared sessions -/

/-- A session behind a lock.  Whoever fails while holding the lock poisons it, since the ledger and
its log may then be out of step, and a poisoned session is not handed out again. -/
structure SharedSession where
  session : Session
  poisoned : Bool

namespace SharedSession

/-- A session behind a lock that nobody holds. -/
def ofSession (session : Session) : SharedSession := ⟨session, false⟩

/-- The session, unless its lock is poisoned. -/
def lock (s : SharedSession) : Except SessionError Session :=
  if s.poisoned then .error .lockPoisoned else .ok s.session

/-- Poison the lock. -/
def poison (s : SharedSession) : SharedSession := { s with poisoned := true }

end SharedSession

end SlotLedger
