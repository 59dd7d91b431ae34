import SlotLedger.Proofs.OperationLog

/-!
# Logs that were cut

What is left of a log that was cut is the frames of its first records and the beginning of the next
frame.  A cut between two frames leaves the log of the first records, and a cut in the octets of a
record is an error that says where the frame starts.  A cut in the length of a frame is neither: one
to three stray octets are passed over, and the log passes for one that ends before them.

## Main definitions

* `BreaksOffAt`: the beginning of a frame
* `OperationLog.appendAll`: records that are added to a log one after another
* `OperationLog.OpensWith`: a log is opened as one that holds given records

## Main results

* `exists_cut`: the beginning of a log's octets, frame by frame
* `readMessages_cut`: what is read from the beginning of a log's octets
* `OperationLog.of_appendAll`: what a log holds that took records
* `OperationLog.openAt_cut`: which cuts of a log are detected
-/

namespace SlotLedger

/-! ## Frames that were cut -/

theorem logOctets_cons (e : LogEntry) (entries : List LogEntry) :
    logOctets (e :: entries) = frame e.encode ++ logOctets entries := List.flatMap_cons

/-- The octets are none, or they begin the frame of the record at a position and do not end it. -/
def BreaksOffAt (entries : List LogEntry) (k : Nat) (stray : Bytes) : Prop :=
  stray = [] ∨ ∃ e, entries[k]? = some e ∧ stray <+: frame e.encode ∧
    stray.length < (frame e.encode).length

/-- **The beginning of a log** is whole frames and the beginning of the next one. -/
theorem exists_cut {entries : List LogEntry} {stored : Bytes} (h : stored <+: logOctets entries) :
    ∃ k stray, k ≤ entries.length ∧ stored = logOctets (entries.take k) ++ stray ∧
      BreaksOffAt entries k stray := by
  induction entries generalizing stored with
  | nil => exact ⟨0, [], Nat.le_refl 0, List.prefix_nil.mp h, .inl rfl⟩
  | cons e later ih =>
    rw [logOctets_cons] at h
    by_cases hwhole : (frame e.encode).length ≤ stored.length
    · -- The first frame is whole, and the cut is behind it.
      obtain ⟨rest, rfl⟩ := List.prefix_of_prefix_length_le (List.prefix_append _ _) h hwhole
      obtain ⟨k, stray, hk, rfl, hstray⟩ := ih ((List.prefix_append_right_inj _).mp h)
      refine ⟨k + 1, stray, Nat.succ_le_succ hk, ?_, hstray⟩
      rw [List.take_succ_cons, logOctets_cons, List.append_assoc]
    · -- The cut is in the first frame.
      have hbegin := List.prefix_of_prefix_length_le h (List.prefix_append _ _)
        (Nat.le_of_not_le hwhole)
      exact ⟨0, stored, Nat.zero_le _, rfl, .inr ⟨e, rfl, hbegin, Nat.lt_of_not_le hwhole⟩⟩

/-- **A frame that was cut in the octets of its record** is an error. -/
theorem readFrames_of_prefix_frame {e : LogEntry} (hfits : e.Fits) {stray : Bytes}
    (hstray : stray <+: frame e.encode) (hfour : 4 ≤ stray.length)
    (hshort : stray.length < (frame e.encode).length) (offset : Nat) (number : UInt64) :
    readFrames offset number stray = .error (.truncated offset) := by
  have hlength : (Bytes.littleEndian 4 e.encode.length).length ≤ stray.length := by
    rw [Bytes.length_littleEndian]
    exact hfour
  -- The length is whole, so what was cut is the record behind it.
  obtain ⟨rest, rfl⟩ := List.prefix_of_prefix_length_le (List.prefix_append _ _) hstray hlength
  have hrest : rest.length < e.encode.length := by
    rw [length_frame, List.length_append, Bytes.length_littleEndian] at hshort
    omega
  rw [readFrames_littleEndian_append e.length_encode_pos hfits, if_pos hrest]

section Cut

variable {entries : List LogEntry} (hnumbered : NumberedFrom 1 entries)
  (hfits : ∀ e ∈ entries, e.Fits)

include hnumbered in
theorem NumberedFrom.take (k : Nat) : NumberedFrom 1 (entries.take k) := by
  rw [← List.take_append_drop k entries] at hnumbered
  exact (numberedFrom_append.mp hnumbered).1

include hnumbered hfits

/-- **What is read from the beginning of a log**: the messages of its whole frames, or an error at
the frame that was cut.  Fewer than four octets of it are no error. -/
theorem readMessages_cut {k : Nat} {stray : Bytes} (hstray : BreaksOffAt entries k stray) :
    readMessages (logOctets (entries.take k) ++ stray) =
      if stray.length < 4 then .ok ((entries.take k).map LogEntry.toMessage)
      else .error (.truncated (logOctets (entries.take k)).length) := by
  have hwhole := readFrames_logOctets_append (hnumbered.take k)
    (fun e he => hfits e (List.mem_of_mem_take he)) 0 stray
  rw [readMessages, hwhole, Nat.zero_add]
  split
  · rename_i hshort
    rw [readFrames_of_length_lt hshort]
    exact congrArg Except.ok (List.append_nil _)
  · rename_i hfour
    obtain rfl | ⟨e, he, hprefix, hlength⟩ := hstray
    · exact absurd (Nat.zero_lt_succ 3) hfour
    · rw [readFrames_of_prefix_frame (hfits e (List.mem_of_getElem? he)) hprefix
        (Nat.le_of_not_lt hfour) hlength]
      rfl

end Cut

/-! ## Logs -/

namespace OperationLog

/-- Records added to a log one after another, each of which it takes. -/
def appendAll (log : OperationLog) (disk : Disk) (entries : List LogEntry) :
    Except LogError (OperationLog × Disk) :=
  entries.foldlM (fun x e => x.1.append x.2 e) (log, disk)

/-- **A log that took records** holds their frames at the end, they are numbered on, and it is no
longer than a file can be. -/
theorem of_appendAll {log log' : OperationLog} {disk disk' : Disk} {entries : List LogEntry}
    (h : log.appendAll disk entries = .ok (log', disk'))
    (hshort : ((disk.content? log.path).getD []).length ≤ Disk.maxFileLength) :
    NumberedFrom (log.lastSequence + 1) entries ∧
      (disk'.content? log.path).getD [] =
        (disk.content? log.path).getD [] ++ logOctets entries ∧
      ((disk'.content? log.path).getD []).length ≤ Disk.maxFileLength := by
  induction entries generalizing log disk with
  | nil =>
    cases h
    exact ⟨trivial, (List.append_nil _).symm, hshort⟩
  | cons e later ih =>
    obtain ⟨⟨log₁, disk₁⟩, hfirst, hlater⟩ := bind_eq_ok_iff.mp h
    obtain ⟨hcontent, hgrown⟩ := content?_of_append hfirst
    obtain ⟨hnext, -, rfl⟩ := append_eq_ok_iff.mp hfirst
    have hheld : (disk₁.content? log.path).getD [] =
        (disk.content? log.path).getD [] ++ frame e.encode := by rw [hcontent, Option.getD_some]
    obtain ⟨hnumbered, hoctets, hend⟩ := ih hlater (hheld ▸ hgrown)
    refine ⟨⟨hnext, hnext ▸ hnumbered⟩, ?_, hend⟩
    have hrest : (disk'.content? log.path).getD [] =
        (disk₁.content? log.path).getD [] ++ logOctets later := hoctets
    rw [hrest, hheld, logOctets_cons, List.append_assoc]

/-- The log at a path is opened as one that holds the records, and they are read back. -/
def OpensWith (disk : Disk) (path : Path) (records : List LogEntry) : Prop :=
  ∃ log, openAt disk path = (.ok log, disk) ∧ log.lastSequence.toNat = records.length ∧
    log.load disk = .ok records

/-- A log that holds nothing is opened as an empty one. -/
theorem lastSequence_of_openAt_blank {disk disk' : Disk} {path : Path} {log : OperationLog}
    (hopen : openAt disk path = (.ok log, disk')) (hblank : (disk'.content? path).getD [] = []) :
    log.lastSequence = 0 := by
  obtain ⟨-, hlast⟩ := of_openAt hopen
  unfold lastSequenceAt at hlast
  split at hlast
  · obtain ⟨found, hmessages, hlast⟩ := bind_eq_ok_iff.mp hlast
    obtain ⟨octets, hoctets, hfound⟩ := content?_of_messages hmessages
    rw [hoctets] at hblank
    obtain rfl : octets = [] := hblank
    have hend : readMessages [] = .ok [] := readFrames_of_length_lt (by decide) 0 1
    obtain rfl := Except.ok.inj (hend.symm.trans hfound)
    exact (Except.ok.inj hlast).symm
  · exact (Except.ok.inj hlast).symm

section Reopened

variable {disk : Disk} {directory : Path} {name : String} (hplain : Path.IsPlain name)
  {stored : Bytes} (hstored : disk.content? (directory.join name) = some stored)
  (hread : disk.canRead (directory.join name) = true)

include hplain hstored hread

theorem opensWith_of_readMessages {records : List LogEntry} (hcount : records.length < 2 ^ 64)
    (h : readMessages stored = .ok (records.map LogEntry.toMessage)) :
    OpensWith disk (directory.join name) records := by
  refine ⟨⟨directory.join name, UInt64.ofNat records.length⟩, ?_,
    UInt64.toNat_ofNat_of_lt' hcount, load_of_readMessages hstored hread h⟩
  rw [openAt_of_content? hplain hstored,
    lastSequenceAt_of_readMessages hstored hread h]
  rfl

theorem openAt_of_readMessages_error {e : LogError} (h : readMessages stored = .error e) :
    openAt disk (directory.join name) = (.error e, disk) := by
  rw [openAt_of_content? hplain hstored, lastSequenceAt, if_pos (Disk.has_of_content? hstored),
    messages_of_content? hstored hread, h]
  rfl

end Reopened

/-- **Which cuts of a log are detected.**  A log that took records and of which only the beginning
is left is opened as the log of the first records where the cut is between two frames.  Any other
cut is an error at the offset of the frame that was cut, unless it is in the length of that frame:
then the log is opened as if it had ended before the frame. -/
theorem openAt_cut {disk d d' later : Disk} {directory : Path} {name : String}
    (hplain : Path.IsPlain name) {blank log : OperationLog} {entries : List LogEntry}
    (hopen : openAt disk (directory.join name) = (.ok blank, d))
    (hblank : (d.content? (directory.join name)).getD [] = [])
    (happend : blank.appendAll d entries = .ok (log, d')) (hfits : ∀ e ∈ entries, e.Fits)
    {stored : Bytes} (hstored : later.content? (directory.join name) = some stored)
    (hcut : stored <+: (d'.content? (directory.join name)).getD [])
    (hread : later.canRead (directory.join name) = true) :
    (∀ k ≤ entries.length, stored = logOctets (entries.take k) →
        OpensWith later (directory.join name) (entries.take k)) ∧
      ((∀ k ≤ entries.length, stored ≠ logOctets (entries.take k)) →
        ∃ k e stray, entries[k]? = some e ∧ stored = logOctets (entries.take k) ++ stray ∧
          stray <+: frame e.encode ∧ 0 < stray.length ∧
          stray.length < (frame e.encode).length ∧
          (4 ≤ stray.length →
            openAt later (directory.join name) =
              (.error (.truncated (logOctets (entries.take k)).length), later)) ∧
          (stray.length < 4 → OpensWith later (directory.join name) (entries.take k))) := by
  obtain ⟨hpath, -⟩ := of_openAt hopen
  rw [← hpath] at hblank
  have hnone : ((d.content? blank.path).getD []).length ≤ Disk.maxFileLength := by
    rw [hblank]
    exact Nat.zero_le _
  obtain ⟨hnumbered, hoctets, hshort⟩ := of_appendAll happend hnone
  rw [hblank, List.nil_append] at hoctets
  rw [hoctets] at hshort
  rw [← hpath, hoctets] at hcut
  rw [lastSequence_of_openAt_blank hopen (hpath ▸ hblank)] at hnumbered
  have hcount : entries.length < 2 ^ 64 :=
    Nat.lt_of_le_of_lt (Nat.le_trans (length_le_length_logOctets entries) hshort) (by decide)
  -- Fewer than four octets behind whole frames make no difference.
  have hopens : ∀ k (stray : Bytes), stray.length < 4 → BreaksOffAt entries k stray →
      stored = logOctets (entries.take k) ++ stray →
      OpensWith later (directory.join name) (entries.take k) := by
    rintro k stray hfour hstray rfl
    have hmessages := readMessages_cut hnumbered hfits hstray
    rw [if_pos hfour] at hmessages
    exact opensWith_of_readMessages hplain hstored hread
      (Nat.lt_of_le_of_lt (List.length_take_le' k entries) hcount) hmessages
  refine ⟨fun k _ hwhole => ?_, fun hbroken => ?_⟩
  · exact hopens k [] (Nat.zero_lt_succ 3) (.inl rfl) (hwhole.trans (List.append_nil _).symm)
  · obtain ⟨k, stray, hk, heq, hstray⟩ := exists_cut hcut
    have hpositive : 0 < stray.length := by
      rw [List.length_pos_iff]
      rintro rfl
      exact hbroken k hk (heq.trans (List.append_nil _))
    obtain rfl | ⟨e, he, hprefix, hlength⟩ := id hstray
    · exact absurd hpositive (Nat.lt_irrefl 0)
    refine ⟨k, e, stray, he, heq, hprefix, hpositive, hlength, fun hfour => ?_, fun hfour => ?_⟩
    · have hmessages := readMessages_cut hnumbered hfits hstray
      rw [← heq, if_neg (Nat.not_lt_of_le hfour)] at hmessages
      exact openAt_of_readMessages_error hplain hstored hread hmessages
    · exact hopens k stray hfour hstray heq

/-- A log in a directory of its own. -/
def logInOps : Path := Path.join ⟨"ops"⟩ "log"

/-- A deployment and a mint. -/
def deploymentAndMint : List LogEntry :=
  [.deploy ⟨"TokenUpgradeableV1", 0xd0, true⟩, .operation 2 (.mint 0xd0 0xd0 5)]

/-- Three octets of the length of the second frame are left, and the log is opened as if it had been
cut in front of them. -/
theorem openAt_cut_inLength :
    ∃ blank d log d' later, openAt .empty logInOps = (.ok blank, d) ∧
      blank.appendAll d deploymentAndMint = .ok (log, d') ∧
      d'.write? logInOps (((d'.content? logInOps).getD []).take 55) = some later ∧
      (((d'.content? logInOps).getD []).take 55).length = 55 ∧
      (logOctets (deploymentAndMint.take 1)).length = 52 ∧
      OpensWith later logInOps (deploymentAndMint.take 1) := by
  have htest : passes (openAt .empty logInOps).1 (fun blank =>
      decide (((openAt .empty logInOps).2.content? logInOps).getD [] = []) &&
      passes (blank.appendAll (openAt .empty logInOps).2 deploymentAndMint) (fun x =>
        let stored := ((x.2.content? logInOps).getD []).take 55
        (x.2.write? logInOps stored).any fun later =>
          decide (later.content? logInOps = some stored ∧ later.canRead logInOps = true ∧
            stored.length = 55 ∧
            ∀ k ≤ deploymentAndMint.length, stored ≠ logOctets (deploymentAndMint.take k)))) =
              true := by
    decide +kernel
  obtain ⟨blank, hblank, htest⟩ := exists_of_passes htest
  obtain ⟨hnothing, htest⟩ := Bool.and_eq_true_iff.mp htest
  obtain ⟨⟨log, d'⟩, happend, htest⟩ := exists_of_passes htest
  obtain ⟨later, hwrite, hlater⟩ := (Option.any_eq_true _ _).mp htest
  obtain ⟨hstored, hread, hlength, hbroken⟩ := of_decide_eq_true hlater
  have hopen : openAt .empty logInOps = (.ok blank, (openAt .empty logInOps).2) :=
    Prod.ext hblank rfl
  have hfits : ∀ e ∈ deploymentAndMint, e.Fits := by decide +kernel
  have hfirst : (logOctets (deploymentAndMint.take 1)).length = 52 := by decide +kernel
  refine ⟨blank, _, log, d', later, hopen, happend, hwrite, hlength, hfirst, ?_⟩
  obtain ⟨-, hcut⟩ := openAt_cut ⟨by decide, by decide, by decide⟩ hopen
    (of_decide_eq_true hnothing) happend hfits hstored (List.take_prefix 55 _) hread
  obtain ⟨k, e, stray, he, heq, -, -, hshort, -, hopens⟩ := hcut hbroken
  have hcount := congrArg List.length heq
  rw [hlength, List.length_append] at hcount
  match k with
  | 0 =>
    obtain rfl := Option.some.inj he
    have hframe : (frame (LogEntry.encode (.deploy ⟨"TokenUpgradeableV1", 0xd0, true⟩))).length =
        52 := by decide +kernel
    rw [hframe] at hshort
    change 55 = 0 + stray.length at hcount
    omega
  | 1 =>
    rw [hfirst] at hcount
    exact hopens (by omega)
  | k + 2 => cases he

end OperationLog

end SlotLedger
