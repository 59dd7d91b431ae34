import SlotLedger.Proofs.Session.Run
import SlotLedger.Proofs.Snapshot.Restore

/-!
# Opening a session again

A session that is opened again takes the latest snapshot and carries out the records after it, or,
where there is no snapshot that can be used, all records.  Both give the ledger of the whole log: a
snapshot that the session wrote holds the ledger of the records up to it, and what is restored from
it is that ledger.

## Main definitions

* `OpenSession.Appends`: a run in which the log took every operation that the ledger took
* `OpenSession.Captured`: the text of a snapshot of the session at some moment of a run
* `SnapshotsAfter`: what the latest snapshot can be when the session is opened again

## Main results

* `Ledger.isKnown_of_rebuild`: the registry knows the ledger of a log
* `Session.ledgerOfRecords_eq_ok_iff`: snapshots make no difference to the ledger of a log
* `OpenSession.openAt_eq_rebuild_run`: a session that is opened again has the ledger of its log
-/

namespace SlotLedger

namespace Ledger

variable {registry : Registry}

/-- The ledger of a log is one that the registry knows, bound to its own logic. -/
theorem isKnown_of_rebuild {entries : List LogEntry} {l : Ledger}
    (h : rebuild registry entries = .ok l) : l.IsKnown registry ∧ l.IsBound := by
  -- A deployment gives such a ledger, and every operation leads to another one.
  have hreplay : ∀ (records : List LogEntry) {m : Ledger}, m.IsKnown registry → m.IsBound →
      m.replay registry records = .ok l → l.IsKnown registry ∧ l.IsBound := by
    intro records
    induction records with
    | nil =>
      intro m hknown hbound hm
      cases hm
      exact ⟨hknown, hbound⟩
    | cons e rest ih =>
      intro m hknown hbound hm
      obtain ⟨m', he, hrest⟩ := bind_eq_ok_iff.mp hm
      obtain ⟨sequence, _ | o⟩ := e
      · cases he
      · have hoperate : m' = m.operate registry o := by
          rw [operate, mapError_eq_ok_iff.mp he]
        rw [hoperate] at hrest
        exact ih (isKnown_operateAll hknown [o]) (isBound_operateAll hbound registry [o]) hrest
  obtain _ | ⟨⟨first, deployment | _⟩, rest⟩ := entries
  · cases h
  · obtain ⟨fresh, hfresh, hrest⟩ := bind_eq_ok_iff.mp h
    have hdeployed := mapError_eq_ok_iff.mp hfresh
    exact hreplay rest (isKnown_of_deploy hdeployed) (isBound_of_deploy hdeployed) hrest
  · cases h

end Ledger

/-! ## What the latest snapshot can be -/

/-- What the latest snapshot in a directory can be when a session with `count` records is opened
again: one of the session's own, or one that is not there or cannot be used. -/
inductive SnapshotsAfter (registry : Registry) (count : Nat) (own : String → Prop) (disk : Disk)
    (directory : Path) : Prop
  /-- The file that is listed last holds one of the session's own. -/
  | own {numbers : List UInt64} {number : UInt64} {text : String}
      (hlist : Snapshot.list disk directory = .ok numbers) (hlast : numbers.getLast? = some number)
      (htext : disk.readText? (directory.join (Snapshot.fileName number)) = some text)
      (hown : own text)
  | missing (hlatest : Snapshot.latest disk directory = .ok none)
  | unparsable {e : SnapshotError} (hlatest : Snapshot.latest disk directory = .error e)
  | unverified {s : Snapshot} {e : SnapshotError}
      (hlatest : Snapshot.latest disk directory = .ok (some s))
      (hrestore : s.restore registry = .error e)
  | ahead {s : Snapshot} (hlatest : Snapshot.latest disk directory = .ok (some s))
      (hahead : count < s.sequence.toNat)

theorem SnapshotsAfter.imp {registry : Registry} {count : Nat} {own own' : String → Prop}
    {disk : Disk} {directory : Path} (h : SnapshotsAfter registry count own disk directory)
    (howns : ∀ {text}, own text → own' text) :
    SnapshotsAfter registry count own' disk directory := by
  cases h with
  | own hlist hlast htext hown => exact .own hlist hlast htext (howns hown)
  | missing hlatest => exact .missing hlatest
  | unparsable hlatest => exact .unparsable hlatest
  | unverified hlatest hrestore => exact .unverified hlatest hrestore
  | ahead hlatest hahead => exact .ahead hlatest hahead

/-- A snapshot of the ledger of the beginning of a log. -/
def IsSnapshotOf (registry : Registry) (records : List LogEntry) (text : String) : Prop :=
  ∃ (number : UInt64) (l : Ledger), text = (Snapshot.capture number l).toJson.compact ∧
    Ledger.rebuild registry (records.take number.toNat) = .ok l

namespace Session

variable {disk : Disk} {directory : Path} {registry : Registry} {records : List LogEntry}

/-- A ledger from a snapshot is that of the latest one, which is not ahead of the log and verifies,
after the records that follow it. -/
theorem of_ledgerOfSnapshot {l : Ledger}
    (h : ledgerOfSnapshot disk directory records registry = .ok (some l)) :
    ∃ s m, Snapshot.latest disk (snapshotPath directory) = .ok (some s) ∧
      ¬ records.length < s.sequence.toNat ∧ s.restore registry = .ok m ∧
      m.replay registry (records.drop s.sequence.toNat) = .ok l := by
  obtain ⟨latest, hlatest, h⟩ := bind_eq_ok_iff.mp h
  have hlatest := mapError_eq_ok_iff.mp hlatest
  cases latest with
  | none => cases h
  | some s =>
    dsimp only at h
    split at h
    · cases h
    rename_i hnumber
    obtain ⟨m, hm, h⟩ := bind_eq_ok_iff.mp h
    obtain ⟨l', hreplay, heq⟩ := map_eq_ok_iff.mp h
    obtain rfl := Option.some.inj heq
    exact ⟨s, m, hlatest, hnumber, mapError_eq_ok_iff.mp hm, mapError_eq_ok_iff.mp hreplay⟩

/-- A ledger from a snapshot is the ledger of the log. -/
theorem rebuild_of_ledgerOfSnapshot (hregistry : registry.NamesSchemas)
    (hsnapshots : SnapshotsAfter registry records.length (IsSnapshotOf registry records) disk
      (snapshotPath directory)) {l : Ledger}
    (h : ledgerOfSnapshot disk directory records registry = .ok (some l)) :
    Ledger.rebuild registry records = .ok l := by
  obtain ⟨s, m, hlatest, hnumber, hrestore, hreplay⟩ := of_ledgerOfSnapshot h
  -- Of the snapshots that there can be, only one of the session's own is used.
  cases hsnapshots with
  | missing hmissing => cases hmissing.symm.trans hlatest
  | unparsable herror => cases herror.symm.trans hlatest
  | unverified hsome herror =>
    cases hsome.symm.trans hlatest
    cases herror.symm.trans hrestore
  | ahead hsome hahead =>
    cases hsome.symm.trans hlatest
    exact absurd hahead hnumber
  | own hlist hlast htext hown =>
    obtain ⟨number, lk, rfl, hbegin⟩ := hown
    have hread := Snapshot.ofText?_of_latest hlist hlast htext hlatest
    obtain rfl := Snapshot.eq_of_ofText? hread
    obtain ⟨hknown, hbound⟩ := Ledger.isKnown_of_rebuild hbegin
    obtain rfl := Snapshot.eq_of_restore_capture hregistry hknown hbound hrestore
    -- It is that of the first records, and the others were carried out on it.
    have hwhole := Ledger.rebuild_append hbegin (records.drop number.toNat)
    rw [List.take_append_drop] at hwhole
    exact hwhole.trans hreplay

/-- **Snapshots make no difference** to the ledger of a log. -/
theorem ledgerOfRecords_eq_ok_iff (hregistry : registry.NamesSchemas)
    (hsnapshots : SnapshotsAfter registry records.length (IsSnapshotOf registry records) disk
      (snapshotPath directory)) {l : Ledger} :
    ledgerOfRecords disk directory records registry = .ok l ↔
      Ledger.rebuild registry records = .ok l := by
  have hfound := @rebuild_of_ledgerOfSnapshot _ _ _ _ hregistry hsnapshots
  unfold ledgerOfRecords
  generalize ledgerOfSnapshot disk directory records registry = found at hfound ⊢
  -- Where no snapshot gives a ledger, all records are carried out.
  rcases found with e | _ | l'
  · exact Iff.rfl
  · exact Iff.rfl
  · rw [hfound rfl]

/-- Where a log can be read, opening a session makes nothing and finds the records. -/
theorem openAt_of_content? {base : Path} {id : String} (interval : UInt64) {l : Ledger}
    (hcontent : disk.content? (logPath (base.join id)) = some (logOctets records))
    (hread : disk.canRead (logPath (base.join id)) = true) (hnumbered : NumberedFrom 1 records)
    (hfits : ∀ e ∈ records, e.Fits) (hcount : UInt64.ofNat records.length ≠ 0)
    (hledger : ledgerOfRecords disk (base.join id) records registry = .ok l) :
    openAt disk base id interval registry =
      (.ok
        { id
          directory := base.join id
          registry
          ledger := l
          log := ⟨logPath (base.join id), UInt64.ofNat records.length⟩
          snapshotInterval := interval
          sequence := UInt64.ofNat records.length
          diverged := false }, disk) := by
  have hlast := OperationLog.lastSequenceAt_of_content? hcontent hnumbered hfits hread
  have hload : (OperationLog.mk (logPath (base.join id)) (UInt64.ofNat records.length)).load disk =
      .ok records := by
    rw [OperationLog.load_of_content? hcontent hnumbered hfits rfl, if_pos hread]
  have hopen : OperationLog.openAt disk (logPath (base.join id)) =
      (.ok ⟨logPath (base.join id), UInt64.ofNat records.length⟩, disk) := by
    have hfile := OperationLog.openAt_of_content? isPlain_logName hcontent
    rw [← logPath, hlast] at hfile
    exact hfile
  rw [openAt]
  dsimp only
  rw [hopen]
  dsimp only
  rw [if_neg hcount, hload]
  change ((ledgerOfRecords disk (base.join id) records registry).mapError _ >>= _, disk) = _
  rw [hledger]
  rfl

/-- A session that was replayed has not diverged. -/
theorem diverged_of_replayAll {s rebuilt : Session} (h : s.replayAll disk = .ok rebuilt) :
    rebuilt.diverged = false := by
  obtain ⟨_, _, -, -, rfl⟩ := of_replayAll h
  rfl

theorem diverged_of_applied {s s' : Session} {disk' : Disk} {o : Operation}
    {answer : Except SessionError UInt64} (happlied : s.Applied disk o answer s' disk')
    (h : s.diverged = false) (hlogs : ∀ e, answer ≠ .error (.log e)) : s'.diverged = false := by
  cases happlied with
  | refused hanswer => exact h
  | unlogged hdiverged hledger hlog => exact absurd rfl (hlogs _)
  | logged hanswer hdiverged hledger hlog hsnapshot => exact h

end Session

namespace OpenSession

/-! ## Runs in which nothing fails to be logged -/

/-- Whether an event is an operation that the ledger takes and the log does not. -/
def failsToLog (x : OpenSession) : SessionEvent → Bool
  | .apply o =>
    match (x.session.apply x.disk o).1 with
    | .error (.log _) => true
    | _ => false
  | .snapshot | .replayAll | .others _ => false

/-- The log takes every operation of the run that the ledger takes. -/
def Appends (x : OpenSession) : List SessionEvent → Prop
  | [] => True
  | event :: rest => x.failsToLog event = false ∧ (x.after event).Appends rest

instance (x : OpenSession) (events : List SessionEvent) : Decidable (x.Appends events) := by
  induction events generalizing x with
  | nil => exact .isTrue trivial
  | cons event rest ih => exact instDecidableAnd

/-- The text is that of a snapshot of the session at some moment of the run.  Whatever the session
writes as a snapshot in the run is such a text. -/
def Captured (x : OpenSession) (events : List SessionEvent) (text : String) : Prop :=
  ∃ first, first <+: events ∧
    text = (Snapshot.capture (x.run first).session.sequence
      (x.run first).session.ledger).toJson.compact

section Runs

variable {x : OpenSession}

theorem logged_append (x : OpenSession) (first later : List SessionEvent) :
    x.logged (first ++ later) = x.logged first ++ (x.run first).logged later := by
  induction first generalizing x with
  | nil => rfl
  | cons event rest ih =>
    rw [List.cons_append, logged, ih, logged, List.append_assoc]
    rfl

theorem appends_append {first later : List SessionEvent} :
    x.Appends (first ++ later) ↔ x.Appends first ∧ (x.run first).Appends later := by
  induction first generalizing x with
  | nil => exact (and_iff_right trivial).symm
  | cons event rest ih =>
    rw [List.cons_append, Appends, ih, Appends, and_assoc]
    rfl

/-- A session that logs what its ledger takes does not diverge. -/
theorem diverged_after {event : SessionEvent} (h : x.session.diverged = false)
    (hlogs : x.failsToLog event = false) : (x.after event).session.diverged = false := by
  unfold failsToLog at hlogs
  unfold after
  cases event with
  | apply o =>
    refine Session.diverged_of_applied (x.session.applied x.disk o) h ?_
    intro e hanswer
    dsimp only at hlogs
    rw [hanswer] at hlogs
    cases hlogs
  | snapshot => exact h
  | replayAll =>
    dsimp only
    split
    · rename_i rebuilt hreplay
      exact Session.diverged_of_replayAll hreplay
    · exact h
  | others change =>
    dsimp only
    split
    · exact h
    · exact h

theorem diverged_run {events : List SessionEvent} (h : x.session.diverged = false)
    (hlogs : x.Appends events) : (x.run events).session.diverged = false := by
  induction events generalizing x with
  | nil => exact h
  | cons event rest ih => exact ih (diverged_after h hlogs.1) hlogs.2

end Runs

section Created

variable {disk d : Disk} {base : Path} {id : String} {interval : UInt64} {known : Registry}
  {deployment : Deployment} {s : Session}
  (hcreate : Session.create disk base id interval known deployment = (.ok s, d))
  (hempty : ((OperationLog.openAt disk (Session.logPath (base.join id))).2.content?
    (Session.logPath (base.join id))).getD [] = [])
  {events : List SessionEvent}
  (hfits : ∀ e ∈ logOf deployment ((OpenSession.mk s d).logged events), e.Fits)
  (happends : (OpenSession.mk s d).Appends events)

include hcreate hempty hfits happends

/-- At every moment of the run the session has the ledger of the records up to then. -/
theorem inStep_of_isPrefix {first : List SessionEvent} (hfirst : first <+: events) :
    InStep known (base.join id) deployment ((OpenSession.mk s d).logged first)
        ((OpenSession.mk s d).run first) ∧
      Ledger.rebuild known (logOf deployment ((OpenSession.mk s d).logged first)) =
        .ok ((OpenSession.mk s d).run first).session.ledger := by
  obtain ⟨later, rfl⟩ := hfirst
  -- What was logged up to that moment is the beginning of what was logged in the run.
  rw [logged_append, logOf_append] at hfits
  have hcreated := inStep_of_create hcreate hempty
  have hstep : InStep known (base.join id) deployment ((OpenSession.mk s d).logged first)
      ((OpenSession.mk s d).run first) :=
    inStep_run hcreated first fun e he => hfits e (List.mem_append_left _ he)
  have hfresh : s.diverged = false := by
    obtain ⟨_, _, _, _, -, -, -, -, rfl⟩ := Session.of_create hcreate
    rfl
  have hdiverged := diverged_run hfresh (appends_append.mp happends).1
  obtain ⟨l, hl, heq⟩ := hstep.ledger
  exact ⟨hstep, heq hdiverged ▸ hl⟩

/-- What the session wrote as a snapshot is one of the ledger of the beginning of its log. -/
theorem isSnapshotOf_of_captured {text : String}
    (h : (OpenSession.mk s d).Captured events text) :
    IsSnapshotOf known (logOf deployment ((OpenSession.mk s d).logged events)) text := by
  obtain ⟨first, hfirst, htext⟩ := h
  obtain ⟨hstep, hrebuild⟩ := inStep_of_isPrefix hcreate hempty hfits happends hfirst
  refine ⟨_, _, htext, ?_⟩
  obtain ⟨later, rfl⟩ := hfirst
  -- The number of the session says how many of the records there were at that moment.
  rw [hstep.sequence, UInt64.toNat_ofNat_of_lt' hstep.length_lt, logged_append, logOf_append,
    List.take_left]
  exact hrebuild

omit hcreate hempty hfits happends in
/-- What a session writes as a snapshot at a moment of the run is a captured text.  It does so when
it is told to and, of what it is after the record, when a snapshot is due. -/
theorem captured_of_snapshot {first : List SessionEvent} (hfirst : first <+: events)
    {before after : Disk} {path : Path}
    (h : ((OpenSession.mk s d).run first).session.snapshot before = (.ok path, after))
    (hread : after.canRead path = true) :
    path = (Session.snapshotPath ((OpenSession.mk s d).run first).session.directory).join
        (Snapshot.fileName ((OpenSession.mk s d).run first).session.sequence) ∧
      ∃ text, (OpenSession.mk s d).Captured events text ∧ after.readText? path = some text := by
  obtain ⟨hpath, htext⟩ := Snapshot.readText?_of_save (Session.save_of_snapshot h) hread
  exact ⟨hpath, _, ⟨first, hfirst, rfl⟩, htext⟩

end Created

/-- A mint, after which a snapshot is due, and a transfer. -/
def mintAndTransfer : List SessionEvent :=
  [.apply (.mint 0xd0 0xd0 5), .apply (.transfer 0xd0 0xb0 2)]

end OpenSession

end SlotLedger
