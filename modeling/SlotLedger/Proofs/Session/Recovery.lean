import SlotLedger.Proofs.Session.Capture

/-!
# What is left after a failure

A session takes back what it could not log, so an operation that is refused changes nothing, unless
it was refused only because its snapshot could not be written: then the operation stands, and
carrying it out again would count it twice.

After a replay the session is as its log says and takes operations again, if the log it has open is
at the last record too.  The replay does not look at that: where the file holds other records than
the open log took, every operation is refused for its number from then on.

## Main results

* `Session.of_apply_error`, `Session.of_apply_snapshot_error`: what a refusal can leave
* `OpenSession.apply_error_runAmong`: what an operation leaves that was refused
* `Session.apply_of_append`, `Session.apply_of_append_error`: how the log decides on an operation
* `Session.apply_of_replayAll`: which operations are taken after a replay
-/

namespace SlotLedger

/-! ## Operations that are refused -/

namespace Session

section Refused

variable {s : Session} {disk : Disk} {o : Operation} {e : SessionError}

/-- An operation that is refused and not logged leaves the disk as it was, and the session too or as
a replay leaves it. -/
theorem of_apply_error (hanswer : (s.apply disk o).1 = .error e)
    (hlogged : ∀ e', e ≠ .snapshot e') (hdiverged : (s.apply disk o).2.1.diverged = false) :
    (s.apply disk o).2.2 = disk ∧
      ((s.apply disk o).2.1 = s ∨
        s.diverged = false ∧ s.replayAll disk = .ok (s.apply disk o).2.1) := by
  have happlied := s.applied disk o
  rw [hanswer] at happlied
  generalize (s.apply disk o).2.1 = s' at happlied hdiverged ⊢
  generalize (s.apply disk o).2.2 = disk' at happlied ⊢
  cases happlied with
  | refused => exact ⟨rfl, .inl rfl⟩
  | @unlogged ledger _ hbefore hledger hlog =>
    cases hreplay : s.replayAll disk with
    | ok rebuilt => exact ⟨rfl, .inr ⟨hbefore, by rw [recover_of_replayAll hreplay]⟩⟩
    | error e' =>
      rw [recover_of_replayAll_error hreplay] at hdiverged
      cases hdiverged
  | logged hanswer =>
    -- Of the answers after which an operation is logged, only a failed snapshot is an error.
    cases e with
    | snapshot e' => exact absurd rfl (hlogged e')
    | _ => cases hanswer

/-- An operation whose snapshot could not be written stands: it is in the ledger and in the log. -/
theorem of_apply_snapshot_error {home : Path} (hpath : s.log.path = logPath home)
    {e' : SnapshotError} (hanswer : (s.apply disk o).1 = .error (.snapshot e')) :
    s.ledger.apply s.registry o = .ok (s.apply disk o).2.1.ledger ∧
      (s.apply disk o).2.1.sequence = s.sequence + 1 ∧
      (s.apply disk o).2.2.content? s.log.path =
        some ((disk.content? s.log.path).getD [] ++
          frame (LogEntry.operation (s.sequence + 1) o).encode) := by
  have happlied := s.applied disk o
  rw [hanswer] at happlied
  generalize (s.apply disk o).2.1 = s' at happlied ⊢
  generalize (s.apply disk o).2.2 = disk' at happlied ⊢
  cases happlied with
  | refused hrefused =>
    rcases hrefused with hrefused | ⟨e, hrefused⟩
    · cases hrefused
    · cases hrefused
  | logged _ _ hledger hlog hsnapshot =>
    obtain ⟨hcontent, -⟩ := OperationLog.content?_of_append hlog
    refine ⟨hledger, rfl, ?_⟩
    rcases hsnapshot with rfl | rfl
    · exact hcontent
    · rw [hpath] at hcontent ⊢
      exact content?_snapshot hcontent _

end Refused

end Session

namespace OpenSession

/-- A replay that reads the records of a session leaves the session as it is. -/
theorem Reflects.eq_of_replayAll {known : Registry} {home : Path} {records : List LogEntry}
    {s rebuilt : Session} {disk : Disk} (h : Reflects known home records s)
    (hdiverged : s.diverged = false) (hload : s.log.load disk = .ok records)
    (hreplay : s.replayAll disk = .ok rebuilt) : rebuilt = s := by
  obtain ⟨found, l, hfound, hrebuild, rfl⟩ := Session.of_replayAll hreplay
  obtain rfl := Except.ok.inj (hload.symm.trans hfound)
  obtain ⟨l', hl, hequal, -⟩ := h.ledger
  rw [h.registry] at hrebuild
  obtain rfl := Except.ok.inj (hl.symm.trans hrebuild)
  rw [← hequal hdiverged, ← h.sequence, ← hdiverged]

/-- **What an operation leaves that was refused**, at any moment of a session, whatever happens to
the disk and the log on it.  Where the session has not diverged after it, the disk is as it was, and
so is the session, unless the log holds other records by now than those that the session has read or
written.  While nobody else writes the log it does not, and nothing at all has changed.

There is one exception: an operation whose snapshot could not be written is refused, but it stands
in the ledger and in the log. -/
theorem apply_error_runAmong {known : Registry} {base : Path} {id : String}
    {deployment : Deployment} {operations : List Operation} {x : OpenSession}
    (hstarts : Starts known base id (logOf deployment operations) x) (events : List SessionEvent)
    {o : Operation} {e : SessionError}
    (hanswer : ((x.runAmong events).session.apply (x.runAmong events).disk o).1 = .error e)
    (hdiverged : ((x.runAmong events).after (.apply o)).session.diverged = false) :
    let before := x.runAmong events
    let after := before.after (.apply o)
    let records := x.recordsOf (logOf deployment operations) events
    ((∀ e', e ≠ .snapshot e') →
        (after = before ∨ after.disk = before.disk ∧
          ∃ found, before.session.log.load before.disk = .ok found ∧ found ≠ records) ∧
        (x.HasLogOf deployment operations → x.LeavesLog events →
          (∀ e ∈ logOf deployment (operations ++ x.logged events), e.Fits) →
          after = before)) ∧
      (∀ e', e = .snapshot e' →
        before.session.ledger.apply known o = .ok after.session.ledger ∧
        after.session.sequence = before.session.sequence + 1 ∧
        after.disk.content? before.session.log.path =
          some ((before.disk.content? before.session.log.path).getD [] ++
            frame (LogEntry.operation after.session.sequence o).encode)) := by
  intro before after records
  have hreflects : Reflects known (base.join id) records before.session :=
    reflects_runAmong hstarts.isFresh.reflects events
  refine ⟨fun hlogged => ?_, ?_⟩
  · have hchanged : after = before ∨ after.disk = before.disk ∧
        ∃ found, before.session.log.load before.disk = .ok found ∧ found ≠ records := by
      obtain ⟨hdisk, hsame | ⟨hbefore, hreplay⟩⟩ :=
        Session.of_apply_error hanswer hlogged hdiverged
      · exact .inl (congrArg₂ OpenSession.mk hsame hdisk)
      · obtain ⟨found, -, hload, -⟩ := Session.of_replayAll hreplay
        by_cases hfound : found = records
        · have hsame := hreflects.eq_of_replayAll hbefore (hfound ▸ hload) hreplay
          exact .inl (congrArg₂ OpenSession.mk hsame hdisk)
        · exact .inr ⟨hdisk, found, hload, hfound⟩
    refine ⟨hchanged, fun hlog hleaves hfits => ?_⟩
    obtain hsame | ⟨-, found, hload, hother⟩ := hchanged
    · exact hsame
    · -- What is read is what was logged.
      obtain ⟨hstep, hrecords⟩ := inStep_runAmong (hstarts.inStep hlog) hleaves hfits
      have hread := OperationLog.load_of_content? hstep.content (numberedFrom_logOf ..) hfits rfl
      rw [hload] at hread
      split at hread
      · exact absurd ((Except.ok.inj hread).trans hrecords.symm) hother
      · cases hread
  · rintro e' rfl
    obtain ⟨hledger, hsequence, hcontent⟩ :=
      Session.of_apply_snapshot_error hreflects.path hanswer
    rw [← hsequence] at hcontent
    exact ⟨hreflects.registry ▸ hledger, hsequence, hcontent⟩

/-- A file takes the place of the directory of snapshots. -/
def snapshotsInTheWay : List SessionEvent :=
  [.others fun disk =>
    (disk.writeText? (Session.snapshotPath (Path.join ⟨"data"⟩ "s")) "x").getD disk]

set_option maxRecDepth 100000 in
/-- A mint after which a snapshot is due is refused since the snapshot cannot be written, and it
stands. -/
theorem apply_error_runAmong_snapshotsInTheWay :
    ∃ s d, blankSession = (.ok s, d) ∧
      let before := OpenSession.runAmong ⟨s, d⟩ snapshotsInTheWay
      let after := before.after (.apply (.mint 0xd0 0xd0 5))
      (before.session.apply before.disk (.mint 0xd0 0xd0 5)).1 = .error (.snapshot .io) ∧
        before.session.sequence = 1 ∧ after.session.sequence = 2 ∧
        before.session.ledger.apply .builtin (.mint 0xd0 0xd0 5) = .ok after.session.ledger := by
  have htest : passes blankSession.1 (fun s =>
      let before := OpenSession.runAmong ⟨s, blankSession.2⟩ snapshotsInTheWay
      let after := before.after (.apply (.mint 0xd0 0xd0 5))
      decide (before.session.sequence = 1 ∧
        (before.session.apply before.disk (.mint 0xd0 0xd0 5)).1 = .error (.snapshot .io) ∧
        after.session.diverged = false)) = true := by
    decide +kernel
  obtain ⟨s, hs, htest⟩ := exists_of_passes htest
  obtain ⟨hfirst, hanswer, hdiverged⟩ := of_decide_eq_true htest
  have hcreate : blankSession = (.ok s, blankSession.2) := Prod.ext hs rfl
  have hstarts : Starts .builtin ⟨"data"⟩ "s" (logOf Ledger.firstVersion []) ⟨s, blankSession.2⟩ :=
    .created hcreate
  obtain ⟨-, hsnapshot⟩ := apply_error_runAmong hstarts snapshotsInTheWay hanswer hdiverged
  obtain ⟨hledger, hsecond, -⟩ := hsnapshot _ rfl
  rw [hfirst] at hsecond
  exact ⟨s, blankSession.2, hcreate, hanswer, hfirst, hsecond, hledger⟩

end OpenSession

/-! ## Operations after a replay -/

namespace Session

section Log

variable {s : Session} {disk : Disk} {o : Operation} {ledger : Ledger}
  (hdiverged : s.diverged = false) (hledger : s.ledger.apply s.registry o = .ok ledger)

include hdiverged hledger

/-- An operation that the log does not take is taken back. -/
theorem apply_of_append_error {e : LogError}
    (hlog : s.log.append disk (.operation (s.sequence + 1) o) = .error e) :
    s.apply disk o = (.error (.log e), { s with ledger }.recover disk, disk) := by
  rw [apply, if_neg (Bool.eq_false_iff.mp hdiverged), hledger]
  dsimp only
  rw [hlog]

/-- An operation that the log takes is answered with its number, and the log holds its record behind
what it held, if a snapshot that is due can be written. -/
theorem apply_of_append {home : Path} {log : OperationLog} {disk' : Disk}
    (hpath : s.log.path = logPath home)
    (hlog : s.log.append disk (.operation (s.sequence + 1) o) = .ok (log, disk'))
    (hsnapshot : s.isSnapshotDue (s.sequence + 1) = true →
      ∃ path, ({ s with ledger, sequence := s.sequence + 1 }.snapshot disk').1 = .ok path) :
    ∃ later,
      s.apply disk o =
        (.ok (s.sequence + 1), { s with ledger, log, sequence := s.sequence + 1 }, later) ∧
      later.content? s.log.path =
        some ((disk.content? s.log.path).getD [] ++
          frame (LogEntry.operation (s.sequence + 1) o).encode) := by
  obtain ⟨hcontent, -⟩ := OperationLog.content?_of_append hlog
  rw [apply, if_neg (Bool.eq_false_iff.mp hdiverged), hledger]
  dsimp only
  rw [hlog]
  dsimp only
  by_cases hdue : s.isSnapshotDue (s.sequence + 1) = true
  · obtain ⟨path, hwritten⟩ := hsnapshot hdue
    -- A snapshot does not depend on the log.
    have hsame : Session.snapshot { s with ledger, log, sequence := s.sequence + 1 } disk' =
        Session.snapshot { s with ledger, sequence := s.sequence + 1 } disk' := by
      rw [snapshot, snapshot]
    obtain ⟨later, hlater⟩ : ∃ later,
        Session.snapshot { s with ledger, sequence := s.sequence + 1 } disk' =
          (.ok path, later) := ⟨_, Prod.ext hwritten rfl⟩
    refine ⟨later, by rw [if_pos hdue, hsame, hlater], ?_⟩
    rw [hpath] at hcontent ⊢
    have hkept := content?_snapshot hcontent { s with ledger, sequence := s.sequence + 1 }
    rwa [hlater] at hkept
  · exact ⟨disk', if_neg hdue, hcontent⟩

end Log

section Replayed

variable {s rebuilt : Session} {disk : Disk} {o : Operation}
  (hreplay : s.replayAll disk = .ok rebuilt)

include hreplay

/-- Replaying once more changes nothing. -/
theorem replayAll_of_replayAll : rebuilt.replayAll disk = .ok rebuilt := by
  obtain ⟨_, _, -, -, heq⟩ := of_replayAll hreplay
  rw [← hreplay, heq]
  rfl

/-- A file that has room for one more frame does not hold so many records that their number, or the
next one, would be taken for a smaller one. -/
theorem toNat_sequence_of_replayAll {records : List LogEntry} {body : List UInt8} {disk' : Disk}
    (hload : s.log.load disk = .ok records)
    (happend : disk.append? s.log.path (frame body) = some disk') :
    rebuilt.sequence.toNat = records.length ∧
      (rebuilt.sequence + 1).toNat = records.length + 1 := by
  obtain ⟨found, _, hfound, -, rfl⟩ := of_replayAll hreplay
  obtain rfl := Except.ok.inj (hload.symm.trans hfound)
  have hbound : records.length + 1 < 2 ^ 64 := by
    have hlength := (OperationLog.numberedFrom_of_load hload).2
    have hshort := (Disk.content?_of_append? happend).2
    rw [List.length_append, length_frame] at hshort
    have hmax : Disk.maxFileLength < 2 ^ 64 := by decide
    omega
  have hcount : (UInt64.ofNat records.length).toNat = records.length :=
    UInt64.toNat_ofNat_of_lt' (Nat.lt_of_succ_lt hbound)
  refine ⟨hcount, ?_⟩
  rw [UInt64.toNat_add, hcount]
  exact Nat.mod_eq_of_lt hbound

/-- The next operation carries on the numbers of the records that were read. -/
theorem numberedFrom_concat_of_replayAll {records : List LogEntry}
    (hload : s.log.load disk = .ok records) (o : Operation) :
    NumberedFrom 1 (records ++ [.operation (rebuilt.sequence + 1) o]) := by
  obtain ⟨found, _, hfound, -, rfl⟩ := of_replayAll hreplay
  obtain rfl := Except.ok.inj (hload.symm.trans hfound)
  exact numberedFrom_append.mpr
    ⟨(OperationLog.numberedFrom_of_load hload).1, UInt64.add_comm .., trivial⟩

/-- An operation that the log does not ask for is refused, and since what the ledger took is taken
back by another replay, nothing changes. -/
theorem apply_of_replayAll_of_ne {ledger : Ledger}
    (haccepted : rebuilt.ledger.apply rebuilt.registry o = .ok ledger)
    (hgap : rebuilt.sequence ≠ rebuilt.log.lastSequence) :
    rebuilt.apply disk o =
      (.error (.log (.sequenceViolation (rebuilt.log.lastSequence + 1) (rebuilt.sequence + 1))),
        rebuilt, disk) := by
  have hrefused : rebuilt.log.append disk (.operation (rebuilt.sequence + 1) o) =
      .error (.sequenceViolation (rebuilt.log.lastSequence + 1) (rebuilt.sequence + 1)) :=
    if_neg fun hsame => hgap ((UInt64.add_left_inj 1).mp hsame)
  have hagain : { rebuilt with ledger }.replayAll disk = .ok rebuilt :=
    replayAll_of_replayAll hreplay
  rw [apply_of_append_error (diverged_of_replayAll hreplay) haccepted hrefused,
    recover_of_replayAll hagain]

end Replayed

/-- **Which operations are taken after a replay.**  A replay that succeeds leaves a session that has
not diverged, with as many records as it read.  An operation that the ledger then accepts, and that
nothing on the disk hinders, is the next record and is answered with its number, if the log that the
session has open is at the last record that was read.  If it is not, the operation is refused for
its number and nothing changes.

All records are read back then if the file held their frames and nothing else: one to three octets
behind them are not seen by the replay and stay in front of the new frame. -/
theorem apply_of_replayAll {s rebuilt : Session} {disk disk' : Disk} {home : Path}
    (hpath : s.log.path = logPath home) (hreplay : s.replayAll disk = .ok rebuilt)
    {o : Operation} {ledger : Ledger}
    (haccepted : rebuilt.ledger.apply rebuilt.registry o = .ok ledger)
    (happend : disk.append? s.log.path
      (frame (LogEntry.operation (rebuilt.sequence + 1) o).encode) = some disk')
    (hsnapshot : rebuilt.isSnapshotDue (rebuilt.sequence + 1) = true →
      ∃ path, ({ rebuilt with ledger, sequence := rebuilt.sequence + 1 }.snapshot disk').1 =
        .ok path) :
    ∃ records, s.log.load disk = .ok records ∧ rebuilt.diverged = false ∧
      rebuilt.sequence.toNat = records.length ∧
      (s.log.lastSequence.toNat = records.length →
        ∃ number applied later,
          rebuilt.apply disk o = (.ok number, applied, later) ∧
          number.toNat = records.length + 1 ∧
          applied =
            { rebuilt with ledger, log := ⟨s.log.path, number⟩, sequence := number } ∧
          later.content? s.log.path =
            some ((disk.content? s.log.path).getD [] ++
              frame (LogEntry.operation number o).encode) ∧
          (disk.content? s.log.path = some (logOctets records) →
            (∀ e ∈ records ++ [.operation number o], e.Fits) →
            later.canRead s.log.path = true →
            applied.log.load later = .ok (records ++ [.operation number o]))) ∧
      (s.log.lastSequence.toNat ≠ records.length →
        rebuilt.apply disk o =
          (.error (.log (.sequenceViolation (s.log.lastSequence + 1) (rebuilt.sequence + 1))),
            rebuilt, disk)) := by
  obtain ⟨records, l, hload, -, heq⟩ := of_replayAll hreplay
  have hlog : rebuilt.log = s.log := by rw [heq]
  have hdiverged : rebuilt.diverged = false := diverged_of_replayAll hreplay
  obtain ⟨hcount, hnext⟩ := toNat_sequence_of_replayAll hreplay hload happend
  have hnumbered := numberedFrom_concat_of_replayAll hreplay hload o
  rw [← hlog] at hpath happend ⊢
  refine ⟨records, hlog ▸ hload, hdiverged, hcount, fun hlast => ?_, fun hlast => ?_⟩
  · have hequal : rebuilt.sequence = rebuilt.log.lastSequence :=
      UInt64.toNat_inj.mp (hcount.trans hlast.symm)
    have htaken := OperationLog.append_eq_ok_iff.mpr ⟨congrArg (· + 1) hequal, happend, rfl⟩
    obtain ⟨later, happly, hcontent⟩ :=
      apply_of_append hdiverged haccepted hpath htaken hsnapshot
    refine ⟨_, _, later, happly, hnext, rfl, hcontent, fun hwhole hfits hread => ?_⟩
    rw [hwhole, Option.getD_some, ← logOctets_concat] at hcontent
    exact (OperationLog.load_of_content? hcontent hnumbered hfits rfl).trans (if_pos hread)
  · refine apply_of_replayAll_of_ne hreplay haccepted fun hsame => hlast ?_
    rw [← hsame, hcount]

set_option maxRecDepth 100000 in
/-- The record of a mint reached the file of a log that did not take it.  After a replay the session
has two records, and it refuses an upgrade as the third, since its log asks for the second. -/
theorem apply_of_replayAll_unnoticedRecord :
    ∃ s d grown rebuilt, OpenSession.blankSession = (.ok s, d) ∧
      d.append? s.log.path
        (frame (LogEntry.operation 2 (.mint 0xd0 0xd0 5)).encode) = some grown ∧
      s.replayAll grown = .ok rebuilt ∧ rebuilt.sequence = 2 ∧
      rebuilt.apply grown (.upgrade "TokenUpgradeableV2") =
        (.error (.log (.sequenceViolation 2 3)), rebuilt, grown) := by
  have htest : passes OpenSession.blankSession.1 (fun s =>
      (OpenSession.blankSession.2.append? s.log.path
        (frame (LogEntry.operation 2 (.mint 0xd0 0xd0 5)).encode)).any fun grown =>
      passes (s.replayAll grown) fun rebuilt =>
      (grown.append? s.log.path
        (frame (LogEntry.operation 3 (.upgrade "TokenUpgradeableV2")).encode)).isSome &&
      decide (s.log.path = logPath (Path.join ⟨"data"⟩ "s") ∧ s.log.lastSequence = 1 ∧
        rebuilt.sequence = 2 ∧ rebuilt.isSnapshotDue 3 = false) &&
      passes (rebuilt.ledger.apply rebuilt.registry (.upgrade "TokenUpgradeableV2"))
        fun _ => true) = true := by
    decide +kernel
  obtain ⟨s, hs, htest⟩ := exists_of_passes htest
  obtain ⟨grown, hgrown, htest⟩ := (Option.any_eq_true _ _).mp htest
  obtain ⟨rebuilt, hreplay, htest⟩ := exists_of_passes htest
  rw [Bool.and_eq_true_iff, Bool.and_eq_true_iff] at htest
  obtain ⟨⟨hroom, hnumbers⟩, haccepted⟩ := htest
  obtain ⟨disk', happend⟩ := Option.isSome_iff_exists.mp hroom
  obtain ⟨hpath, hlast, hsequence, hdue⟩ := of_decide_eq_true hnumbers
  obtain ⟨ledger, hledger, -⟩ := exists_of_passes haccepted
  have hthird : rebuilt.sequence + 1 = 3 := by rw [hsequence]; rfl
  obtain ⟨records, -, -, hcount, -, hrefused⟩ := apply_of_replayAll hpath hreplay hledger
    (hthird ▸ happend) (fun h => absurd (hdue.symm.trans (hthird ▸ h)) Bool.false_ne_true)
  rw [hthird, hlast] at hrefused
  refine ⟨s, OpenSession.blankSession.2, grown, rebuilt, Prod.ext hs rfl, hgrown, hreplay,
    hsequence, hrefused ?_⟩
  rw [← hcount, hsequence]
  decide

end Session

end SlotLedger
