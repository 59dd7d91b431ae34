import Mathlib.Tactic.Set
import SlotLedger.Proofs.Ledger.Movement
import SlotLedger.Proofs.OperationLog
import SlotLedger.Proofs.Snapshot.Directory
import SlotLedger.Session

/-!
# A session is in step with its log

While a session is open, operations are applied to it, snapshots are written and the log is
replayed, and on the disk anything may happen, except that nobody else writes the log.  An operation
that could not be logged is taken back, and if even that fails the session says that it has
diverged.  Unless it has, its ledger is the ledger of the log, and the log holds the deployment and
the operations that were logged, numbered from one.

## Main definitions

* `logOf`: the records of a deployment and of operations
* `SessionEvent`, `OpenSession.after`, `OpenSession.run`: what happens to an open session
* `OpenSession.logged`: the operations that were logged
* `OpenSession.InStep`: the session, its log and the operations logged agree

## Main results

* `Ledger.rebuild_append`: the ledger of a log, from the ledger of its beginning
* `Session.applied`: what applying an operation can come to
* `OpenSession.inStep_after`, `OpenSession.inStep_run`: a session stays in step
* `OpenSession.ledger_eq_rebuild_run`: the ledger of a session is the ledger of its log
-/

namespace SlotLedger

/-! ## Records -/

/-- Operations as records, the first with the given number. -/
def entriesFrom (number : UInt64) : List Operation → List LogEntry
  | [] => []
  | o :: rest => .operation number o :: entriesFrom (number + 1) rest

/-- The records of a deployment and of operations after it. -/
def logOf (deployment : Deployment) (operations : List Operation) : List LogEntry :=
  .deploy deployment :: entriesFrom 2 operations

theorem length_entriesFrom (number : UInt64) (operations : List Operation) :
    (entriesFrom number operations).length = operations.length := by
  induction operations generalizing number with
  | nil => rfl
  | cons o rest ih => rw [entriesFrom, List.length_cons, List.length_cons, ih]

theorem entriesFrom_append (number : UInt64) (operations later : List Operation) :
    entriesFrom number (operations ++ later) =
      entriesFrom number operations ++
        entriesFrom (number + UInt64.ofNat operations.length) later := by
  induction operations generalizing number with
  | nil => simp [entriesFrom]
  | cons o rest ih =>
    rw [List.cons_append, entriesFrom, ih, entriesFrom, List.cons_append, List.length_cons,
      number_add_succ]

theorem numberedFrom_entriesFrom (number : UInt64) (operations : List Operation) :
    NumberedFrom number (entriesFrom number operations) := by
  induction operations generalizing number with
  | nil => trivial
  | cons o rest ih => exact ⟨rfl, ih (number + 1)⟩

section Records

variable (deployment : Deployment) (operations : List Operation)

theorem numberedFrom_logOf : NumberedFrom 1 (logOf deployment operations) :=
  ⟨rfl, numberedFrom_entriesFrom 2 operations⟩

theorem length_logOf : (logOf deployment operations).length = operations.length + 1 := by
  rw [logOf, List.length_cons, length_entriesFrom]

theorem logOf_append (later : List Operation) :
    logOf deployment (operations ++ later) =
      logOf deployment operations ++
        entriesFrom (UInt64.ofNat (logOf deployment operations).length + 1) later := by
  have hnumber : (2 : UInt64) + UInt64.ofNat operations.length =
      UInt64.ofNat (operations.length + 1) + 1 := by
    rw [UInt64.ofNat_add, UInt64.add_assoc, UInt64.add_comm]
    rfl
  rw [length_logOf, logOf, entriesFrom_append, ← List.cons_append, ← logOf, hnumber]

theorem logOf_concat (o : Operation) :
    logOf deployment (operations ++ [o]) =
      logOf deployment operations ++
        [.operation (UInt64.ofNat (logOf deployment operations).length + 1) o] :=
  logOf_append deployment operations [o]

/-- The records of a log are the beginning of the records it has later. -/
theorem fits_of_append {later : List Operation}
    (hfits : ∀ e ∈ logOf deployment (operations ++ later), e.Fits) :
    ∀ e ∈ logOf deployment operations, e.Fits := by
  rw [logOf_append] at hfits
  exact fun e he => hfits e (List.mem_append_left _ he)

end Records

namespace Ledger

/-- The ledger of a log comes from the ledger of its beginning. -/
theorem rebuild_append {registry : Registry} {entries : List LogEntry} {l : Ledger}
    (h : rebuild registry entries = .ok l) (later : List LogEntry) :
    rebuild registry (entries ++ later) = l.replay registry later := by
  -- Only records that begin with a deployment have a ledger.
  obtain _ | ⟨⟨first, _ | _⟩, rest⟩ := entries
  · cases h
  · obtain ⟨fresh, hfresh, hreplay⟩ := bind_eq_ok_iff.mp h
    rw [List.cons_append, rebuild, hfresh]
    change fresh.replay registry (rest ++ later) = _
    rw [replay_append, hreplay]
    rfl
  · cases h

theorem rebuild_concat {registry : Registry} {entries : List LogEntry} {l : Ledger}
    (h : rebuild registry entries = .ok l) (number : UInt64) (o : Operation) :
    rebuild registry (entries ++ [.operation number o]) =
      (l.apply registry o).mapError (.rejected number) :=
  (rebuild_append h _).trans (bind_pure _)

end Ledger

namespace Session

theorem isPlain_logName : Path.IsPlain "operations.log" := ⟨by decide, by decide, by decide⟩

/-! ## Creating a session -/

/-- A session that is created has an open log without records, a fresh ledger, and the record of its
deployment in the log. -/
theorem of_create {disk d : Disk} {base : Path} {id : String} {interval : UInt64}
    {registry : Registry} {deployment : Deployment} {s : Session}
    (h : create disk base id interval registry deployment = (.ok s, d)) :
    ∃ blank log disk' ledger,
      OperationLog.openAt disk (logPath (base.join id)) = (.ok blank, disk') ∧
      blank.lastSequence = 0 ∧ deployment.deploy registry = .ok ledger ∧
      blank.append disk' (.deploy deployment) = .ok (log, d) ∧
      s = { id, directory := base.join id, registry, ledger, log, snapshotInterval := interval
            sequence := 1, diverged := false } := by
  -- Every step of the creation can fail, and here none did.
  rw [create] at h
  dsimp only at h
  split at h
  · cases h
  rename_i blank disk' hopen
  split at h
  · cases h
  rename_i hnone
  split at h
  · cases h
  rename_i ledger hledger
  split at h
  · cases h
  rename_i log disk'' hlog
  cases h
  exact ⟨blank, log, disk', ledger, hopen, not_not.mp hnone, hledger, hlog, rfl⟩

/-! ## Applying an operation -/

/-- Whether an answer means that the operation was logged.  It does even if the snapshot after it
could not be written. -/
def isLogged : Except SessionError UInt64 → Bool
  | .ok _ => true
  | .error (.snapshot _) => true
  | .error _ => false

/-- What applying an operation can come to: the answer, and the session and the disk after it. -/
inductive Applied (s : Session) (disk : Disk) (o : Operation) :
    Except SessionError UInt64 → Session → Disk → Prop
  /-- The session has diverged, or the ledger refuses. -/
  | refused {e : SessionError} (hanswer : e = .diverged s.id ∨ ∃ e', e = .rejected e') :
      Applied s disk o (.error e) s disk
  /-- The ledger takes the operation and the log does not. -/
  | unlogged {ledger : Ledger} {e : LogError} (hdiverged : s.diverged = false)
      (hledger : s.ledger.apply s.registry o = .ok ledger)
      (hlog : s.log.append disk (.operation (s.sequence + 1) o) = .error e) :
      Applied s disk o (.error (.log e)) ({ s with ledger }.recover disk) disk
  /-- Both take it; a snapshot may follow. -/
  | logged {answer : Except SessionError UInt64} {ledger : Ledger} {log : OperationLog}
      {disk' disk'' : Disk} (hanswer : isLogged answer = true)
      (hdiverged : s.diverged = false) (hledger : s.ledger.apply s.registry o = .ok ledger)
      (hlog : s.log.append disk (.operation (s.sequence + 1) o) = .ok (log, disk'))
      (hsnapshot : disk'' = disk' ∨
        disk'' = ({ s with ledger, log, sequence := s.sequence + 1 }.snapshot disk').2) :
      Applied s disk o answer { s with ledger, log, sequence := s.sequence + 1 } disk''

/-- **What applying an operation can come to.** -/
theorem applied (s : Session) (disk : Disk) (o : Operation) :
    Applied s disk o (s.apply disk o).1 (s.apply disk o).2.1 (s.apply disk o).2.2 := by
  rw [apply]
  split
  · exact .refused (.inl rfl)
  rename_i hdiverged
  rw [Bool.not_eq_true] at hdiverged
  split
  · exact .refused (.inr ⟨_, rfl⟩)
  rename_i ledger hledger
  dsimp only
  split
  · rename_i e hlog
    exact .unlogged hdiverged hledger hlog
  rename_i log disk' hlog
  split
  · -- A snapshot that could not be written changes the answer, but nothing is taken back.
    set logged : Session := { s with ledger, log, sequence := s.sequence + 1 }
    have hdisk : ∀ answer, isLogged answer = true →
        Applied s disk o answer logged (logged.snapshot disk').2 :=
      fun _ hanswer => .logged hanswer hdiverged hledger hlog (.inr rfl)
    cases hsave : Snapshot.save disk' (snapshotPath s.directory) (s.sequence + 1) ledger with
    | mk result disk'' =>
      have hsnapshot : logged.snapshot disk' = (result.mapError .snapshot, disk'') := by
        rw [snapshot, hsave]
      rw [hsnapshot] at hdisk ⊢
      cases result with
      | error e => exact hdisk _ rfl
      | ok path => exact hdisk _ rfl
  · exact .logged rfl hdiverged hledger hlog (.inl rfl)

/-- A snapshot is one of the session's ledger under the session's number. -/
theorem save_of_snapshot {s : Session} {before after : Disk} {path : Path}
    (h : s.snapshot before = (.ok path, after)) :
    Snapshot.save before (snapshotPath s.directory) s.sequence s.ledger = (.ok path, after) := by
  rw [snapshot] at h
  generalize Snapshot.save before (snapshotPath s.directory) s.sequence s.ledger = saved at h ⊢
  obtain ⟨result, disk⟩ := saved
  obtain ⟨hresult, rfl⟩ := Prod.mk.inj h
  rw [mapError_eq_ok_iff.mp hresult]

/-- Snapshots go to other files than a log. -/
theorem content?_snapshot {disk : Disk} {home : Path} {content : Bytes}
    (h : disk.content? (logPath home) = some content) (s : Session) :
    (s.snapshot disk).2.content? (logPath home) = some content := by
  -- A snapshot is named after its number, so its name begins with another letter.
  have hname : ∀ n, Snapshot.fileName n ≠ "operations.log" := by
    intro n heq
    have hhead := Snapshot.head?_fileName n
    rw [heq] at hhead
    exact absurd hhead (by decide)
  have hkept := Snapshot.content?_save isPlain_logName hname h (snapshotPath s.directory)
    s.sequence s.ledger
  rw [snapshot]
  generalize Snapshot.save disk (snapshotPath s.directory) s.sequence s.ledger = saved at hkept ⊢
  exact hkept

/-- What a replay comes to where the log can be read. -/
theorem replayAll_of_load {s : Session} {disk : Disk} {entries : List LogEntry} {l : Ledger}
    (hload : s.log.load disk = .ok entries) (hrebuild : Ledger.rebuild s.registry entries = .ok l) :
    s.replayAll disk =
      .ok { s with
        ledger := l
        sequence := (entries.getLast?.map LogEntry.sequence).getD 0
        diverged := false } := by
  rw [replayAll, records, hload]
  change (Ledger.rebuild s.registry entries).mapError _ >>= _ = _
  rw [hrebuild]
  rfl

/-- A replay that succeeds has read records numbered from one and carried all of them out. -/
theorem of_replayAll {s rebuilt : Session} {disk : Disk} (h : s.replayAll disk = .ok rebuilt) :
    ∃ entries l, s.log.load disk = .ok entries ∧ Ledger.rebuild s.registry entries = .ok l ∧
      rebuilt =
        { s with ledger := l, sequence := UInt64.ofNat entries.length, diverged := false } := by
  obtain ⟨entries, hentries, h⟩ := bind_eq_ok_iff.mp h
  obtain ⟨l, hl, h⟩ := bind_eq_ok_iff.mp h
  have hload := mapError_eq_ok_iff.mp hentries
  obtain ⟨hnumbered, -⟩ := OperationLog.numberedFrom_of_load hload
  refine ⟨entries, l, hload, mapError_eq_ok_iff.mp hl, ?_⟩
  -- The records count from one, so the number of the last one is how many there are.
  rw [← sequence_getLast? hnumbered]
  exact (Except.ok.inj h).symm

theorem replayAll_of_load_error {s : Session} {disk : Disk} {e : LogError}
    (hload : s.log.load disk = .error e) : s.replayAll disk = .error (.log e) := by
  rw [replayAll, records, hload]
  rfl

section Recover

variable {s : Session} {disk : Disk}

/-- A replay does not look at the ledger, so it takes back what the ledger is ahead. -/
theorem recover_of_replayAll {rebuilt : Session} (h : s.replayAll disk = .ok rebuilt)
    (ledger : Ledger) : { s with ledger }.recover disk = rebuilt := by
  have hreplayed : { s with ledger }.replayAll disk = .ok rebuilt := h
  unfold recover
  rw [hreplayed]

theorem recover_of_replayAll_error {e : SessionError} (h : s.replayAll disk = .error e)
    (ledger : Ledger) :
    { s with ledger }.recover disk = { s with ledger, diverged := true } := by
  have hreplayed : { s with ledger }.replayAll disk = .error e := h
  unfold recover
  rw [hreplayed]

end Recover

end Session

/-! ## Open sessions -/

/-- A session that is open, and the disk it is on. -/
structure OpenSession where
  session : Session
  disk : Disk

/-- What can happen while a session is open. -/
inductive SessionEvent where
  | apply (operation : Operation)
  | snapshot
  | replayAll
  /-- Something else changes the disk. -/
  | others (change : Disk → Disk)

namespace OpenSession

/-- The operation that an event logs, if it logs one. -/
def loggedBy (x : OpenSession) : SessionEvent → List Operation
  | .apply o => if Session.isLogged (x.session.apply x.disk o).1 then [o] else []
  | .snapshot | .replayAll | .others _ => []

/-- The session and the disk after an event.  Nobody else writes the log: a change that would leave
something else in it does not happen. -/
def after (x : OpenSession) : SessionEvent → OpenSession
  | .apply o => ⟨(x.session.apply x.disk o).2.1, (x.session.apply x.disk o).2.2⟩
  | .snapshot => ⟨x.session, (x.session.snapshot x.disk).2⟩
  | .replayAll =>
    match x.session.replayAll x.disk with
    | .ok rebuilt => ⟨rebuilt, x.disk⟩
    | .error _ => x
  | .others change =>
    if (change x.disk).content? x.session.log.path = x.disk.content? x.session.log.path then
      ⟨x.session, change x.disk⟩
    else x

/-- The session and the disk after events. -/
def run (x : OpenSession) (events : List SessionEvent) : OpenSession := events.foldl after x

/-- The operations logged in a run, in order: those that were accepted and not taken back. -/
def logged (x : OpenSession) : List SessionEvent → List Operation
  | [] => []
  | e :: rest => x.loggedBy e ++ (x.after e).logged rest

/-- **The session, its log and the operations logged agree.**  Only the ledger may be ahead, while
the session has diverged. -/
structure InStep (known : Registry) (home : Path) (deployment : Deployment)
    (operations : List Operation) (x : OpenSession) : Prop where
  registry : x.session.registry = known
  directory : x.session.directory = home
  path : x.session.log.path = Session.logPath home
  content : x.disk.content? x.session.log.path = some (logOctets (logOf deployment operations))
  short : (logOctets (logOf deployment operations)).length ≤ Disk.maxFileLength
  lastSequence : x.session.log.lastSequence = UInt64.ofNat (logOf deployment operations).length
  sequence : x.session.sequence = UInt64.ofNat (logOf deployment operations).length
  ledger : ∃ l, Ledger.rebuild known (logOf deployment operations) = .ok l ∧
    (x.session.diverged = false → x.session.ledger = l)

section Steps

variable {known : Registry} {home : Path} {deployment : Deployment} {operations : List Operation}
  {x : OpenSession}

/-- A file has no room for more records than can be numbered. -/
theorem InStep.length_lt (h : InStep known home deployment operations x) :
    (logOf deployment operations).length < 2 ^ 64 := by
  have hlength := length_le_length_logOctets (logOf deployment operations)
  have hmax : Disk.maxFileLength < 2 ^ 64 := by decide
  exact Nat.lt_of_le_of_lt (Nat.le_trans hlength h.short) hmax

theorem InStep.of_content? (h : InStep known home deployment operations x) {disk : Disk}
    (hdisk : disk.content? x.session.log.path = x.disk.content? x.session.log.path) :
    InStep known home deployment operations ⟨x.session, disk⟩ where
  registry := h.registry
  directory := h.directory
  path := h.path
  content := hdisk.trans h.content
  short := h.short
  lastSequence := h.lastSequence
  sequence := h.sequence
  ledger := h.ledger

/-- Snapshots leave the session in step. -/
theorem InStep.snapshot (h : InStep known home deployment operations x) :
    InStep known home deployment operations ⟨x.session, (x.session.snapshot x.disk).2⟩ := by
  refine h.of_content? ?_
  have hcontent := h.content
  rw [h.path] at hcontent ⊢
  exact (Session.content?_snapshot hcontent x.session).trans hcontent.symm

/-- **A replay brings the session in step**, if the log can be read. -/
theorem InStep.replayAll (h : InStep known home deployment operations x)
    (hfits : ∀ e ∈ logOf deployment operations, e.Fits) :
    (∃ l, Ledger.rebuild known (logOf deployment operations) = .ok l ∧
        x.session.replayAll x.disk = .ok { x.session with ledger := l, diverged := false }) ∨
      x.session.replayAll x.disk = .error (.log .io) := by
  have hload := OperationLog.load_of_content? h.content (numberedFrom_logOf deployment operations)
    hfits rfl
  have hlast := sequence_getLast? (numberedFrom_logOf deployment operations)
  obtain ⟨l, hl, -⟩ := h.ledger
  -- What the file holds is known, so only the right to read it is in question.
  by_cases hread : x.disk.canRead x.session.log.path = true
  · rw [if_pos hread] at hload
    have hreplay := Session.replayAll_of_load hload (h.registry ▸ hl)
    rw [hlast, ← h.sequence] at hreplay
    exact .inl ⟨l, hl, hreplay⟩
  · rw [if_neg hread] at hload
    exact .inr (Session.replayAll_of_load_error hload)

/-- A ledger that is ahead of the log is taken back, or the session says that it has diverged. -/
theorem InStep.recover_eq (h : InStep known home deployment operations x)
    (hfits : ∀ e ∈ logOf deployment operations, e.Fits) (ledger : Ledger) :
    (∃ l, Ledger.rebuild known (logOf deployment operations) = .ok l ∧
        { x.session with ledger }.recover x.disk =
          { x.session with ledger := l, diverged := false }) ∨
      { x.session with ledger }.recover x.disk =
        { x.session with ledger, diverged := true } := by
  rcases h.replayAll hfits with ⟨l, hl, hreplay⟩ | hreplay
  · exact .inl ⟨l, hl, Session.recover_of_replayAll hreplay ledger⟩
  · exact .inr (Session.recover_of_replayAll_error hreplay ledger)

theorem InStep.recover (h : InStep known home deployment operations x)
    (hfits : ∀ e ∈ logOf deployment operations, e.Fits) (ledger : Ledger) :
    InStep known home deployment operations
      ⟨{ x.session with ledger }.recover x.disk, x.disk⟩ := by
  obtain ⟨l, hl, -⟩ := h.ledger
  rcases h.recover_eq hfits ledger with ⟨l', hl', hrecover⟩ | hrecover
  · rw [hrecover]
    exact { h with ledger := ⟨l', hl', fun _ => rfl⟩ }
  · rw [hrecover]
    exact { h with ledger := ⟨l, hl, nofun⟩ }

/-- A record that was added to the log is in step with the ledger that took its operation. -/
theorem InStep.logged (h : InStep known home deployment operations x) {o : Operation}
    {ledger : Ledger} {log : OperationLog} {disk : Disk} (hdiverged : x.session.diverged = false)
    (hledger : x.session.ledger.apply x.session.registry o = .ok ledger)
    (hlog : x.session.log.append x.disk (.operation (x.session.sequence + 1) o) =
      .ok (log, disk)) :
    InStep known home deployment (operations ++ [o])
      ⟨{ x.session with ledger, log, sequence := x.session.sequence + 1 }, disk⟩ := by
  obtain ⟨l, hl, heq⟩ := h.ledger
  -- The log took the record, so the record has the number after the last one.
  obtain ⟨-, -, rfl⟩ := OperationLog.append_eq_ok_iff.mp hlog
  obtain ⟨hcontent, hshort⟩ := OperationLog.content?_of_append hlog
  have hentries := logOf_concat deployment operations o
  rw [← h.sequence] at hentries
  have hoctets : (x.disk.content? x.session.log.path).getD [] ++
      frame (LogEntry.operation (x.session.sequence + 1) o).encode =
        logOctets (logOf deployment (operations ++ [o])) := by
    rw [h.content, hentries, logOctets_concat, Option.getD_some]
  have hsequence : x.session.sequence + 1 =
      UInt64.ofNat (logOf deployment (operations ++ [o])).length := by
    rw [hentries, List.length_append, UInt64.ofNat_add, ← h.sequence]
    rfl
  exact
    { registry := h.registry
      directory := h.directory
      path := h.path
      content := by rw [hcontent, hoctets]
      short := hoctets ▸ hshort
      lastSequence := hsequence
      sequence := hsequence
      ledger := by
        refine ⟨ledger, ?_, fun _ => rfl⟩
        rw [hentries, Ledger.rebuild_concat hl, ← heq hdiverged, ← h.registry, hledger]
        rfl }

/-- What applying an operation preserves. -/
theorem InStep.applied (h : InStep known home deployment operations x)
    (hfits : ∀ e ∈ logOf deployment operations, e.Fits) {o : Operation}
    {answer : Except SessionError UInt64} {s : Session} {disk : Disk}
    (happlied : x.session.Applied x.disk o answer s disk) :
    InStep known home deployment (operations ++ if Session.isLogged answer then [o] else [])
      ⟨s, disk⟩ := by
  cases happlied with
  | @refused e hanswer =>
    have hunlogged : Session.isLogged (.error e) = false := by
      rcases hanswer with rfl | ⟨e, rfl⟩
      · rfl
      · rfl
    rw [hunlogged, if_neg Bool.false_ne_true, List.append_nil]
    exact h
  | @unlogged _ e hdiverged hledger hlog =>
    have hunlogged : Session.isLogged (.error (.log e)) = false := rfl
    rw [hunlogged, if_neg Bool.false_ne_true, List.append_nil]
    exact h.recover hfits _
  | logged hanswer hdiverged hledger hlog hsnapshot =>
    rw [if_pos hanswer]
    have hlogged := h.logged hdiverged hledger hlog
    rcases hsnapshot with rfl | rfl
    · exact hlogged
    · exact hlogged.snapshot

/-- **What an event preserves**: the session stays in step with its log. -/
theorem inStep_after (h : InStep known home deployment operations x)
    (hfits : ∀ e ∈ logOf deployment operations, e.Fits) (event : SessionEvent) :
    InStep known home deployment (operations ++ x.loggedBy event) (x.after event) := by
  unfold after loggedBy
  cases event with
  | apply o => exact h.applied hfits (x.session.applied x.disk o)
  | snapshot =>
    rw [List.append_nil]
    exact h.snapshot
  | replayAll =>
    rw [List.append_nil]
    rcases h.replayAll hfits with ⟨l, hl, hreplay⟩ | hreplay
    · rw [hreplay]
      exact { h with ledger := ⟨l, hl, fun _ => rfl⟩ }
    · rw [hreplay]
      exact h
  | others change =>
    rw [List.append_nil]
    dsimp only
    split
    · rename_i hcontent
      exact h.of_content? hcontent
    · exact h

/-- **What a run preserves**: the session stays in step with its log. -/
theorem inStep_run (h : InStep known home deployment operations x) (events : List SessionEvent)
    (hfits : ∀ e ∈ logOf deployment (operations ++ x.logged events), e.Fits) :
    InStep known home deployment (operations ++ x.logged events) (x.run events) := by
  -- What was logged so far grows with every event, and its records fit since all records do.
  induction events generalizing operations x with
  | nil =>
    rw [logged, List.append_nil]
    exact h
  | cons event rest ih =>
    rw [logged, ← List.append_assoc] at hfits ⊢
    have hbefore := fits_of_append _ _ (List.append_assoc .. ▸ hfits)
    exact ih (inStep_after h hbefore event) hfits

end Steps

/-! ## From its creation on -/

section Created

variable {disk d : Disk} {base : Path} {id : String} {interval : UInt64} {known : Registry}
  {deployment : Deployment} {s : Session}

/-- A session that was just created is in step with its log. -/
theorem inStep_of_create
    (hcreate : Session.create disk base id interval known deployment = (.ok s, d))
    (hempty : ((OperationLog.openAt disk (Session.logPath (base.join id))).2.content?
      (Session.logPath (base.join id))).getD [] = []) :
    InStep known (base.join id) deployment [] ⟨s, d⟩ := by
  obtain ⟨blank, log, disk', ledger, hopen, hnone, hledger, hlog, rfl⟩ := Session.of_create hcreate
  obtain ⟨-, -, rfl⟩ := OperationLog.append_eq_ok_iff.mp hlog
  obtain ⟨hpath, -⟩ := OperationLog.of_openAt hopen
  obtain ⟨hcontent, hshort⟩ := OperationLog.content?_of_append hlog
  -- The file was empty, so the record of the deployment is all that it holds.
  rw [hopen] at hempty
  rw [hpath, hempty] at hcontent hshort
  have hoctets : [] ++ frame (LogEntry.deploy deployment).encode =
      logOctets (logOf deployment []) := by
    simp [logOf, logOctets, entriesFrom]
  exact
    { registry := rfl
      directory := rfl
      path := hpath
      content := by
        rw [← hoctets, ← hcontent]
        exact congrArg _ hpath
      short := hoctets ▸ hshort
      lastSequence := rfl
      sequence := rfl
      ledger := by
        refine ⟨ledger, ?_, fun _ => rfl⟩
        rw [logOf, entriesFrom, LogEntry.deploy, Ledger.rebuild, hledger]
        rfl }

/-- **The ledger of a session is the ledger of its log.**  After any run of a session that was
created where its log held nothing: unless it has diverged, the log is read back as the deployment
and the operations that were logged, numbered from one, both counters are at the last of them, and
the records alone give the session's ledger and its fingerprint.

A file of fewer than four octets passes for an empty log, so that nothing was in it has to be
said. -/
theorem ledger_eq_rebuild_run
    (hcreate : Session.create disk base id interval known deployment = (.ok s, d))
    (hempty : ((OperationLog.openAt disk (Session.logPath (base.join id))).2.content?
      (Session.logPath (base.join id))).getD [] = [])
    (events : List SessionEvent)
    (hfits : ∀ e ∈ logOf deployment ((OpenSession.mk s d).logged events), e.Fits)
    (hdiverged : ((OpenSession.mk s d).run events).session.diverged = false) :
    let entries := logOf deployment ((OpenSession.mk s d).logged events)
    let x := (OpenSession.mk s d).run events
    (x.disk.canRead x.session.log.path = true → x.session.log.load x.disk = .ok entries) ∧
      x.session.sequence.toNat = entries.length ∧
      x.session.log.lastSequence.toNat = entries.length ∧
      Ledger.rebuild known entries = .ok x.session.ledger ∧
      Ledger.rebuildFingerprint known entries = .ok x.session.fingerprint := by
  intro entries x
  have hstep := inStep_run (inStep_of_create hcreate hempty) events hfits
  obtain ⟨l, hl, heq⟩ := hstep.ledger
  rw [List.nil_append, ← heq hdiverged] at hl
  have hnumber : (UInt64.ofNat entries.length).toNat = entries.length :=
    UInt64.toNat_ofNat_of_lt' hstep.length_lt
  refine ⟨fun hread => ?_, hstep.sequence ▸ hnumber, hstep.lastSequence ▸ hnumber, hl, ?_⟩
  · rw [OperationLog.load_of_content? hstep.content (numberedFrom_logOf _ _) hfits rfl,
      if_pos hread]
    rfl
  · rw [Ledger.rebuildFingerprint, hl]
    rfl

end Created

/-- A session of the first version of the token on a blank disk, with a snapshot after every second
record. -/
def blankSession : Except SessionError Session × Disk :=
  Session.create .empty ⟨"data"⟩ "s" 2 .builtin Ledger.firstVersion

theorem fits_mintAndTransfer :
    ∀ e ∈ logOf Ledger.firstVersion [.mint 0xd0 0xd0 5, .transfer 0xd0 0xb0 2], e.Fits := by
  decide +kernel

/-- A run with a mint, a refusal, two mints that cannot be logged, of which the second cannot be
taken back before the disk has recovered, and a transfer. -/
def troubledRun : List SessionEvent :=
  let log : Place := ["data", "s", "operations.log"]
  [.apply (.mint 0xd0 0xd0 5), .apply (.mint 0xb0 0xb0 1),
    .others fun disk => { disk with unwritable := [log] }, .apply (.mint 0xd0 0xd0 7),
    .others fun disk => { disk with unreadable := [log] }, .apply (.mint 0xd0 0xd0 7),
    .others fun disk => { disk with unreadable := [], unwritable := [] }, .replayAll, .snapshot,
    .apply (.transfer 0xd0 0xb0 2)]

set_option maxRecDepth 100000 in
/-- After trouble with the disk the log holds the deployment, the mint and the transfer, and gives
the session's ledger. -/
theorem ledger_eq_rebuild_troubledRun :
    ∃ s d, blankSession = (.ok s, d) ∧
      (OpenSession.run ⟨s, d⟩ (troubledRun.take 6)).session.diverged = true ∧
      (OpenSession.run ⟨s, d⟩ troubledRun).session.log.load
          (OpenSession.run ⟨s, d⟩ troubledRun).disk =
        .ok (logOf Ledger.firstVersion [.mint 0xd0 0xd0 5, .transfer 0xd0 0xb0 2]) ∧
      Ledger.rebuild .builtin
          (logOf Ledger.firstVersion [.mint 0xd0 0xd0 5, .transfer 0xd0 0xb0 2]) =
        .ok (OpenSession.run ⟨s, d⟩ troubledRun).session.ledger := by
  have htest : passes blankSession.1 (fun s =>
      let x : OpenSession := ⟨s, blankSession.2⟩
      decide (x.logged troubledRun = [.mint 0xd0 0xd0 5, .transfer 0xd0 0xb0 2] ∧
        (x.run (troubledRun.take 6)).session.diverged = true ∧
        (x.run troubledRun).session.diverged = false ∧
        (x.run troubledRun).disk.canRead (x.run troubledRun).session.log.path = true)) = true := by
    decide +kernel
  obtain ⟨s, hs, htest⟩ := exists_of_passes htest
  obtain ⟨hlogged, hbetween, hdiverged, hread⟩ := of_decide_eq_true htest
  have hcreate : blankSession = (.ok s, blankSession.2) := Prod.ext hs rfl
  obtain ⟨hload, -, -, hledger, -⟩ := ledger_eq_rebuild_run hcreate (by decide +kernel) troubledRun
    (hlogged ▸ fits_mintAndTransfer) hdiverged
  rw [hlogged] at hload hledger
  exact ⟨s, blankSession.2, hcreate, hbetween, hload hread, hledger⟩

end OpenSession

end SlotLedger
