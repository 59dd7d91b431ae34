import SlotLedger.Proofs.Session.Start

/-!
# What snapshots hold

A snapshot pairs the session's ledger with the number of its last record, and nobody asks whether
the two belong together.  They do unless the session has diverged: whatever happens to the disk, the
ledger is the one of the records that the session has read or written.  A session that has diverged
is one operation ahead of these, and so is a snapshot that it writes.

## Main definitions

* `OpenSession.disturb`, `OpenSession.runAmong`: what happens to a session on a disk on which
  anything may happen, to the log too
* `OpenSession.recordsOf`: the records of the log as the session last read or wrote it
* `OpenSession.Reflects`: a session and its records agree, or it is one operation ahead

## Main results

* `OpenSession.reflects_disturb`, `OpenSession.reflects_runAmong`: agreement is preserved
* `OpenSession.inStep_runAmong`: the records are those of the file while nobody else writes it
* `OpenSession.snapshot_runAmong`: what a snapshot holds
-/

namespace SlotLedger

namespace OpenSession

/-! ## Sessions among others -/

/-- The session and the disk after an event, where others may do anything to the disk. -/
def disturb (x : OpenSession) : SessionEvent → OpenSession
  | .others change => ⟨x.session, change x.disk⟩
  | .apply o => x.after (.apply o)
  | .snapshot => x.after .snapshot
  | .replayAll => x.after .replayAll

/-- The session and the disk after events, where others may do anything to the disk. -/
def runAmong (x : OpenSession) (events : List SessionEvent) : OpenSession := events.foldl disturb x

/-- The records that a replay reads; if it fails, those that were known before. -/
def reread (x : OpenSession) (records : List LogEntry) : List LogEntry :=
  match x.session.replayAll x.disk with
  | .ok _ => (x.session.log.load x.disk).toOption.getD records
  | .error _ => records

/-- The records that a session has read or written after an operation with the given answer. -/
def recordsOfAnswer (x : OpenSession) (records : List LogEntry) (o : Operation) :
    Except SessionError UInt64 → List LogEntry
  | .ok _ | .error (.snapshot _) => records ++ [.operation (x.session.sequence + 1) o]
  | .error (.log _) => x.reread records
  | .error _ => records

/-- The records that a session has read or written after an event. -/
def recordsAfter (x : OpenSession) (records : List LogEntry) : SessionEvent → List LogEntry
  | .apply o => x.recordsOfAnswer records o (x.session.apply x.disk o).1
  | .replayAll => x.reread records
  | .snapshot | .others _ => records

/-- The records of the log as the session last read or wrote it, after events. -/
def recordsOf (x : OpenSession) (records : List LogEntry) : List SessionEvent → List LogEntry
  | [] => records
  | event :: rest => (x.disturb event).recordsOf (x.recordsAfter records event) rest

/-- Nobody else writes the log in a run. -/
def LeavesLog (x : OpenSession) : List SessionEvent → Prop
  | [] => True
  | .others change :: rest =>
    (change x.disk).content? x.session.log.path = x.disk.content? x.session.log.path ∧
      (x.disturb (.others change)).LeavesLog rest
  | event :: rest => (x.disturb event).LeavesLog rest

/-- **A session and its records agree.**  While the session has diverged, its ledger is one
operation ahead of its records. -/
structure Reflects (known : Registry) (home : Path) (records : List LogEntry) (s : Session) :
    Prop where
  registry : s.registry = known
  directory : s.directory = home
  path : s.log.path = Session.logPath home
  sequence : s.sequence = UInt64.ofNat records.length
  ledger : ∃ l, Ledger.rebuild known records = .ok l ∧
    (s.diverged = false → s.ledger = l) ∧
    (s.diverged = true → ∃ o, l.apply known o = .ok s.ledger)

section Steps

variable {known : Registry} {home : Path} {records : List LogEntry} {x : OpenSession}

theorem IsFresh.reflects {s : Session} (h : IsFresh known home records s) :
    Reflects known home records s where
  registry := h.registry
  directory := h.directory
  path := h.path
  sequence := h.sequence
  ledger := ⟨s.ledger, h.ledger, fun _ => rfl,
    fun hdiverged => absurd (h.diverged.symm.trans hdiverged) Bool.false_ne_true⟩

/-- What a replay leaves, and the records that it reads. -/
theorem Reflects.of_replayAll (h : Reflects known home records x.session) {rebuilt : Session}
    (hreplay : x.session.replayAll x.disk = .ok rebuilt) :
    Reflects known home (x.reread records) rebuilt := by
  obtain ⟨found, l, hload, hrebuild, heq⟩ := Session.of_replayAll hreplay
  have hfound : x.reread records = found := by
    unfold reread
    rw [hreplay, hload]
    rfl
  rw [hfound, heq]
  exact
    { registry := h.registry
      directory := h.directory
      path := h.path
      sequence := rfl
      ledger := ⟨l, h.registry ▸ hrebuild, fun _ => rfl, nofun⟩ }

theorem reread_of_replayAll_error {e : SessionError}
    (hreplay : x.session.replayAll x.disk = .error e) : x.reread records = records := by
  unfold reread
  rw [hreplay]

/-- The operation that a session logs is its next record. -/
theorem Reflects.concat {s : Session} (h : Reflects known home records s)
    (hdiverged : s.diverged = false) {o : Operation} {ledger : Ledger}
    (hledger : s.ledger.apply s.registry o = .ok ledger) {disk disk' : Disk} {log : OperationLog}
    (hlog : s.log.append disk (.operation (s.sequence + 1) o) = .ok (log, disk')) :
    Reflects known home (records ++ [.operation (s.sequence + 1) o])
      { s with ledger, log, sequence := s.sequence + 1 } := by
  obtain ⟨l, hl, hequal, -⟩ := h.ledger
  rw [h.registry, hequal hdiverged] at hledger
  refine
    { registry := h.registry
      directory := h.directory
      path := ?path
      sequence := ?sequence
      ledger := ⟨ledger, ?ledger, fun _ => rfl,
        fun hahead => absurd (hdiverged.symm.trans hahead) Bool.false_ne_true⟩ }
  case path =>
    obtain ⟨-, -, rfl⟩ := OperationLog.append_eq_ok_iff.mp hlog
    exact h.path
  case sequence =>
    rw [List.length_append, UInt64.ofNat_add, ← h.sequence]
    rfl
  case ledger =>
    rw [Ledger.rebuild_concat hl, hledger]
    rfl

/-- **What applying an operation preserves.** -/
theorem Reflects.apply (h : Reflects known home records x.session) (o : Operation) :
    Reflects known home (x.recordsAfter records (.apply o))
      (x.session.apply x.disk o).2.1 := by
  have happlied := x.session.applied x.disk o
  rw [recordsAfter]
  generalize (x.session.apply x.disk o).1 = answer at happlied ⊢
  generalize (x.session.apply x.disk o).2.1 = s' at happlied ⊢
  generalize (x.session.apply x.disk o).2.2 = disk' at happlied
  cases happlied with
  | refused hanswer =>
    rcases hanswer with rfl | ⟨e, rfl⟩
    · exact h
    · exact h
  | unlogged hdiverged hledger hlog =>
    change Reflects known home (x.reread records) _
    cases hreplay : x.session.replayAll x.disk with
    | ok rebuilt =>
      rw [Session.recover_of_replayAll hreplay]
      exact h.of_replayAll hreplay
    | error e' =>
      rw [reread_of_replayAll_error hreplay, Session.recover_of_replayAll_error hreplay]
      -- The operation that was not logged is the one that the ledger is ahead.
      obtain ⟨l, hl, hequal, -⟩ := h.ledger
      rw [h.registry, hequal hdiverged] at hledger
      exact { h with ledger := ⟨l, hl, nofun, fun _ => ⟨o, hledger⟩⟩ }
  | logged hanswer hdiverged hledger hlog hsnapshot =>
    have hrecords := h.concat hdiverged hledger hlog
    cases answer with
    | ok number => exact hrecords
    | error e =>
      cases e with
      | snapshot e' => exact hrecords
      | _ => cases hanswer

/-- **What an event preserves**: the session agrees with its records. -/
theorem reflects_disturb (h : Reflects known home records x.session) (event : SessionEvent) :
    Reflects known home (x.recordsAfter records event) (x.disturb event).session := by
  cases event with
  | apply o => exact h.apply o
  | snapshot => exact h
  | replayAll =>
    unfold disturb after recordsAfter
    dsimp only
    split
    · rename_i rebuilt hreplay
      exact h.of_replayAll hreplay
    · rename_i hreplay
      rw [reread_of_replayAll_error hreplay]
      exact h
  | others change => exact h

/-- **What a run preserves**: the session agrees with its records, whatever others do. -/
theorem reflects_runAmong (h : Reflects known home records x.session)
    (events : List SessionEvent) :
    Reflects known home (x.recordsOf records events) (x.runAmong events).session := by
  induction events generalizing records x with
  | nil => exact h
  | cons event rest ih => exact ih (reflects_disturb h event)

end Steps

/-! ## The records of the file -/

section File

variable {known : Registry} {home : Path} {deployment : Deployment} {operations : List Operation}
  {x : OpenSession}

/-- A replay reads what the session logged. -/
theorem InStep.reread_eq (h : InStep known home deployment operations x)
    (hfits : ∀ e ∈ logOf deployment operations, e.Fits) :
    x.reread (logOf deployment operations) = logOf deployment operations := by
  have hload := OperationLog.load_of_content? h.content (numberedFrom_logOf deployment operations)
    hfits rfl
  unfold reread
  rw [hload]
  split
  · split
    · rfl
    · rfl
  · rfl

/-- A session in step has read and written what it logged. -/
theorem InStep.recordsAfter_eq (h : InStep known home deployment operations x)
    (hfits : ∀ e ∈ logOf deployment operations, e.Fits) (event : SessionEvent) :
    x.recordsAfter (logOf deployment operations) event =
      logOf deployment (operations ++ x.loggedBy event) := by
  have hsame : logOf deployment operations = logOf deployment (operations ++ []) := by
    rw [List.append_nil]
  cases event with
  | apply o =>
    have hconcat := logOf_concat deployment operations o
    rw [← h.sequence] at hconcat
    rw [recordsAfter, loggedBy]
    generalize (x.session.apply x.disk o).1 = answer
    cases answer with
    | ok number => exact hconcat.symm
    | error e =>
      cases e with
      | snapshot e' => exact hconcat.symm
      | log e' => exact (h.reread_eq hfits).trans hsame
      | _ => exact hsame
  | replayAll => exact (h.reread_eq hfits).trans hsame
  | snapshot => exact hsame
  | others change => exact hsame

theorem disturb_eq_after {event : SessionEvent} {rest : List SessionEvent}
    (h : x.LeavesLog (event :: rest)) :
    x.disturb event = x.after event ∧ (x.disturb event).LeavesLog rest := by
  cases event with
  | others change => exact ⟨(if_pos h.1).symm, h.2⟩
  | _ => exact ⟨rfl, h⟩

/-- **While nobody else writes the log**, the session stays in step with it, and the records that it
has read and written are the deployment and the operations that were logged. -/
theorem inStep_runAmong (h : InStep known home deployment operations x)
    {events : List SessionEvent} (hleaves : x.LeavesLog events)
    (hfits : ∀ e ∈ logOf deployment (operations ++ x.logged events), e.Fits) :
    InStep known home deployment (operations ++ x.logged events) (x.runAmong events) ∧
      x.recordsOf (logOf deployment operations) events =
        logOf deployment (operations ++ x.logged events) := by
  induction events generalizing operations x with
  | nil =>
    rw [logged, List.append_nil]
    exact ⟨h, rfl⟩
  | cons event rest ih =>
    rw [logged, ← List.append_assoc] at hfits ⊢
    have hbefore := fits_of_append _ _ (List.append_assoc .. ▸ hfits)
    obtain ⟨hsame, hrest⟩ := disturb_eq_after hleaves
    rw [hsame] at hrest
    -- The induction hypothesis is about the operations logged by now.
    rw [recordsOf, runAmong, List.foldl_cons, hsame, h.recordsAfter_eq hbefore]
    exact ih (inStep_after h hbefore event) hrest hfits

end File

/-! ## What a snapshot holds -/

/-- **What a snapshot holds**, at any moment of a session, whatever happens to the disk and the log
on it: the number of records that the session has read or written, and their ledger, unless the
session has diverged.  If it has, the ledger in the snapshot is that of the records and of one more
operation, which was accepted and is in no record.

While nobody else writes the log, these are the records in its file. -/
theorem snapshot_runAmong {known : Registry} {base : Path} {id : String} {deployment : Deployment}
    {operations : List Operation} {x : OpenSession}
    (hstarts : Starts known base id (logOf deployment operations) x) (events : List SessionEvent)
    {before after : Disk} {path : Path}
    (hsnapshot : (x.runAmong events).session.snapshot before = (.ok path, after)) :
    let s := (x.runAmong events).session
    let records := x.recordsOf (logOf deployment operations) events
    path = (Session.snapshotPath (base.join id)).join (Snapshot.fileName s.sequence) ∧
      after.content? path =
        some (Bytes.utf8 (Snapshot.capture s.sequence s.ledger).toJson.compact) ∧
      s.sequence = UInt64.ofNat records.length ∧
      (s.diverged = false → Ledger.rebuild known records = .ok s.ledger) ∧
      (s.diverged = true →
        ∃ l o, Ledger.rebuild known records = .ok l ∧ l.apply known o = .ok s.ledger) ∧
      (x.HasLogOf deployment operations → x.LeavesLog events →
        (∀ e ∈ logOf deployment (operations ++ x.logged events), e.Fits) →
        records = logOf deployment (operations ++ x.logged events) ∧
          (x.runAmong events).disk.content? s.log.path = some (logOctets records)) := by
  intro s records
  have hreflects : Reflects known (base.join id) records s :=
    reflects_runAmong hstarts.isFresh.reflects events
  obtain ⟨hpath, hcontent⟩ := Snapshot.content?_of_save (Session.save_of_snapshot hsnapshot)
  rw [hreflects.directory] at hpath
  obtain ⟨l, hl, hequal, hahead⟩ := hreflects.ledger
  refine ⟨hpath, hcontent, hreflects.sequence, fun hdiverged => ?_, fun hdiverged => ?_,
    fun hlog hleaves hfits => ?_⟩
  · exact hequal hdiverged ▸ hl
  · obtain ⟨o, ho⟩ := hahead hdiverged
    exact ⟨l, o, hl, ho⟩
  · obtain ⟨hend, hrecords⟩ := inStep_runAmong (hstarts.inStep hlog) hleaves hfits
    have hheld := hend.content
    rw [← hrecords] at hheld
    exact ⟨hrecords, hheld⟩

/-- The log is moved away, a directory takes its place, and an upgrade follows, which can neither be
logged nor taken back. -/
def upgradeWithoutLog : List SessionEvent :=
  let home := Path.join ⟨"data"⟩ "s"
  [.others fun disk =>
      (((disk.move? (Session.logPath home) (home.join "kept.log")).getD disk).makeDirectories
        (Session.logPath home)).2,
    .apply (.upgrade "TokenUpgradeableV2")]

set_option maxRecDepth 100000 in
/-- The session has one record, of its deployment, and writes a snapshot with the number one of a
ledger that was upgraded. -/
theorem snapshot_runAmong_upgradeWithoutLog :
    ∃ s d path after l o, blankSession = (.ok s, d) ∧
      let x := OpenSession.runAmong ⟨s, d⟩ upgradeWithoutLog
      x.session.snapshot x.disk = (.ok path, after) ∧
        after.content? path =
          some (Bytes.utf8 (Snapshot.capture 1 x.session.ledger).toJson.compact) ∧
        x.session.ledger.schema.version = 2 ∧
        Ledger.rebuild .builtin [.deploy Ledger.firstVersion] = .ok l ∧ l.schema.version = 1 ∧
        l.apply .builtin o = .ok x.session.ledger := by
  have htest : passes blankSession.1 (fun s =>
      let start : OpenSession := ⟨s, blankSession.2⟩
      let x := start.runAmong upgradeWithoutLog
      passes (x.session.snapshot x.disk).1 (fun _ => true) &&
      decide (x.session.diverged = true ∧ x.session.sequence = 1 ∧
        x.session.ledger.schema.version = 2 ∧
        start.recordsOf (logOf Ledger.firstVersion []) upgradeWithoutLog =
          [.deploy Ledger.firstVersion])) = true := by
    decide +kernel
  have hfirst : passes (Ledger.rebuild .builtin [.deploy Ledger.firstVersion])
      (fun l => decide (l.schema.version = 1)) = true := by
    decide +kernel
  obtain ⟨s, hs, htest⟩ := exists_of_passes htest
  obtain ⟨hwritten, hstate⟩ := Bool.and_eq_true_iff.mp htest
  obtain ⟨path, hpath, -⟩ := exists_of_passes hwritten
  obtain ⟨hdiverged, hsequence, hversion, hrecords⟩ := of_decide_eq_true hstate
  have hcreate : blankSession = (.ok s, blankSession.2) := Prod.ext hs rfl
  obtain ⟨after, hsnapshot⟩ : ∃ after, (OpenSession.runAmong ⟨s, blankSession.2⟩
      upgradeWithoutLog).session.snapshot (OpenSession.runAmong ⟨s, blankSession.2⟩
        upgradeWithoutLog).disk = (.ok path, after) := ⟨_, Prod.ext hpath rfl⟩
  have hstarts : Starts .builtin ⟨"data"⟩ "s" (logOf Ledger.firstVersion []) ⟨s, blankSession.2⟩ :=
    .created hcreate
  obtain ⟨-, hcontent, -, -, hahead, -⟩ := snapshot_runAmong hstarts upgradeWithoutLog hsnapshot
  obtain ⟨l, o, hl, ho⟩ := hahead hdiverged
  rw [hrecords] at hl
  rw [hsequence] at hcontent
  obtain ⟨l', hl', hone⟩ := exists_of_passes hfirst
  obtain rfl := Except.ok.inj (hl.symm.trans hl')
  exact ⟨s, blankSession.2, path, after, l, o, hcreate, hsnapshot, hcontent, hversion, hl,
    of_decide_eq_true hone, ho⟩

end OpenSession

end SlotLedger
