import SlotLedger.Proofs.Session.Reopen

/-!
# How sessions start

A session comes about by a deployment or from a log with records.  Either way it starts with the
ledger of its records, which are numbered from one, and if its log holds exactly their frames, it
starts in step with its log.

## Main definitions

* `OpenSession.Starts`: a session that was just created or opened, and its records
* `OpenSession.IsFresh`: what such a session starts with
* `OpenSession.HasLogOf`: the log holds the frames of a deployment and of operations

## Main results

* `exists_logOf_of_rebuild`: records that have a ledger are a deployment and operations
* `Session.of_openAt`: what a session is that was opened
* `OpenSession.Starts.isFresh`: a session that starts is fresh
* `OpenSession.Starts.inStep`: a session starts in step with a log that holds its records
-/

namespace SlotLedger

/-! ## Records -/

/-- Numbered records that can be carried out are operations. -/
theorem exists_entriesFrom_of_replay {registry : Registry} {number : UInt64}
    {records : List LogEntry} {l l' : Ledger} (hnumbered : NumberedFrom number records)
    (h : l.replay registry records = .ok l') :
    ∃ operations, records = entriesFrom number operations := by
  induction records generalizing number l with
  | nil => exact ⟨[], rfl⟩
  | cons e rest ih =>
    obtain ⟨rfl, hrest⟩ := hnumbered
    obtain ⟨m, he, hreplay⟩ := bind_eq_ok_iff.mp h
    obtain ⟨sequence, _ | o⟩ := e
    · -- A second deployment is not carried out.
      cases he
    · obtain ⟨operations, rfl⟩ := ih hrest hreplay
      exact ⟨o :: operations, rfl⟩

/-- **Numbered records that have a ledger** are a deployment and operations. -/
theorem exists_logOf_of_rebuild {registry : Registry} {records : List LogEntry} {l : Ledger}
    (hnumbered : NumberedFrom 1 records) (h : Ledger.rebuild registry records = .ok l) :
    ∃ deployment operations, records = logOf deployment operations := by
  obtain _ | ⟨⟨first, deployment | _⟩, rest⟩ := records
  · cases h
  · obtain ⟨hfirst, hrest⟩ := hnumbered
    obtain rfl : first = 1 := hfirst
    obtain ⟨fresh, -, hreplay⟩ := bind_eq_ok_iff.mp h
    obtain ⟨operations, rfl⟩ := exists_entriesFrom_of_replay hrest hreplay
    exact ⟨deployment, operations, rfl⟩
  · cases h

namespace Session

/-- A session that is opened has its records from the log and its ledger from these and, where one
can be used, from a snapshot. -/
theorem of_openAt {disk d : Disk} {base : Path} {id : String} {interval : UInt64}
    {registry : Registry} {s : Session}
    (h : openAt disk base id interval registry = (.ok s, d)) :
    ∃ log records ledger,
      OperationLog.openAt disk (logPath (base.join id)) = (.ok log, d) ∧
      log.lastSequence ≠ 0 ∧ log.load d = .ok records ∧
      ledgerOfRecords d (base.join id) records registry = .ok ledger ∧
      s = { id, directory := base.join id, registry, ledger, log, snapshotInterval := interval
            sequence := log.lastSequence, diverged := false } := by
  rw [openAt] at h
  dsimp only at h
  split at h
  · cases h
  rename_i log disk' hopen
  obtain ⟨hresult, rfl⟩ := Prod.mk.inj h
  by_cases hnone : log.lastSequence = 0
  · rw [if_pos hnone] at hresult
    cases hresult
  · rw [if_neg hnone] at hresult
    obtain ⟨records, hload, hresult⟩ := bind_eq_ok_iff.mp hresult
    obtain ⟨ledger, hledger, hresult⟩ := bind_eq_ok_iff.mp hresult
    exact ⟨log, records, ledger, hopen, hnone, mapError_eq_ok_iff.mp hload,
      mapError_eq_ok_iff.mp hledger, (Except.ok.inj hresult).symm⟩

end Session

namespace OpenSession

/-- **How a session starts**, and with which records: it is created and logs its deployment, or it
is opened and has the records of its log.  A session that is opened may find a snapshot of its own
ledger, or one that cannot be used. -/
inductive Starts (known : Registry) (base : Path) (id : String) :
    List LogEntry → OpenSession → Prop
  | created {disk d : Disk} {interval : UInt64} {deployment : Deployment} {s : Session}
      (hcreate : Session.create disk base id interval known deployment = (.ok s, d)) :
      Starts known base id [.deploy deployment] ⟨s, d⟩
  | opened {disk d : Disk} {interval : UInt64} {records : List LogEntry} {s : Session}
      (hregistry : known.NamesSchemas)
      (hopen : Session.openAt disk base id interval known = (.ok s, d))
      (hload : s.log.load d = .ok records)
      (hsnapshots : SnapshotsAfter known records.length (IsSnapshotOf known records) d
        (Session.snapshotPath (base.join id))) :
      Starts known base id records ⟨s, d⟩

/-- What a session starts with: the ledger of its records, and counters at the last of them. -/
structure IsFresh (known : Registry) (home : Path) (records : List LogEntry) (s : Session) :
    Prop where
  registry : s.registry = known
  directory : s.directory = home
  path : s.log.path = Session.logPath home
  numbered : NumberedFrom 1 records
  lastSequence : s.log.lastSequence = UInt64.ofNat records.length
  sequence : s.sequence = UInt64.ofNat records.length
  diverged : s.diverged = false
  ledger : Ledger.rebuild known records = .ok s.ledger

variable {known : Registry} {base : Path} {id : String} {records : List LogEntry} {x : OpenSession}

/-- **What a session starts with.** -/
theorem Starts.isFresh (h : Starts known base id records x) :
    IsFresh known (base.join id) records x.session := by
  cases h with
  | @created _ _ _ deployment _ hcreate =>
    obtain ⟨blank, log, disk', ledger, hopen, -, hledger, hlog, rfl⟩ := Session.of_create hcreate
    obtain ⟨-, -, rfl⟩ := OperationLog.append_eq_ok_iff.mp hlog
    have hrebuild : Ledger.rebuild known [.deploy deployment] = .ok ledger := by
      rw [LogEntry.deploy, Ledger.rebuild, hledger]
      rfl
    exact
      { registry := rfl
        directory := rfl
        path := (OperationLog.of_openAt hopen).1
        numbered := ⟨rfl, trivial⟩
        lastSequence := rfl
        sequence := rfl
        diverged := rfl
        ledger := hrebuild }
  | opened hregistry hopen hload hsnapshots =>
    obtain ⟨log, found, ledger, hlog, -, hfound, hledger, rfl⟩ := Session.of_openAt hopen
    obtain rfl := Except.ok.inj (hfound.symm.trans hload)
    -- The log counted its records when it was opened, and these are the ones that are loaded.
    obtain ⟨hpath, hlast⟩ := OperationLog.of_openAt hlog
    have hcount := OperationLog.lastSequenceAt_of_load hload
    rw [hpath, hlast] at hcount
    exact
      { registry := rfl
        directory := rfl
        path := hpath
        numbered := (OperationLog.numberedFrom_of_load hload).1
        lastSequence := Except.ok.inj hcount
        sequence := Except.ok.inj hcount
        diverged := rfl
        ledger := (Session.ledgerOfRecords_eq_ok_iff hregistry hsnapshots).mp hledger }

/-- The log is a file that holds the frames of a deployment and of operations and nothing else. -/
def HasLogOf (x : OpenSession) (deployment : Deployment) (operations : List Operation) : Prop :=
  x.disk.content? x.session.log.path = some (logOctets (logOf deployment operations)) ∧
    (logOctets (logOf deployment operations)).length ≤ Disk.maxFileLength

/-- **A session starts in step with its log**, if the log holds its records and nothing else. -/
theorem Starts.inStep {deployment : Deployment} {operations : List Operation}
    (h : Starts known base id (logOf deployment operations) x)
    (hlog : x.HasLogOf deployment operations) :
    InStep known (base.join id) deployment operations x where
  registry := h.isFresh.registry
  directory := h.isFresh.directory
  path := h.isFresh.path
  content := hlog.1
  short := hlog.2
  lastSequence := h.isFresh.lastSequence
  sequence := h.isFresh.sequence
  ledger := ⟨x.session.ledger, h.isFresh.ledger, fun _ => rfl⟩

/-- The records of a session that starts are a deployment and operations, so what is said of these
is said of every session. -/
theorem Starts.exists_logOf (h : Starts known base id records x) :
    ∃ deployment operations, records = logOf deployment operations :=
  exists_logOf_of_rebuild h.isFresh.numbered h.isFresh.ledger

end OpenSession

end SlotLedger
