import Mathlib.Data.List.Induction
import SlotLedger.Proofs.OperationLog.Truncation
import SlotLedger.Proofs.Wire.Truncation

/-!
# What a log acknowledges

A log takes every record with the next number, however long it is, but it reads back only records
that are no longer than a frame may be.  So what a log acknowledged is read back as long as all of
it fits.  The first record that does not fit makes the log unreadable: it can neither be opened nor
loaded again.

The length in front of a record is written modulo 2^32, so what is read of a still longer record may
begin with a length that would be allowed.  Then its octets are cut behind that length, and what is
left is no message, or its number alone and behind it a length that is too great.

## Main definitions

* `LogCall`, `LogRun.step`, `LogRun.run`: a log that takes records and is closed and opened again

## Main results

* `readFrames_of_not_fits`: a record that does not fit is not read
* `LogRun.sound_run`: what holds of a log in use after every run
* `LogRun.acknowledged_run`: which acknowledged records are read back
-/

namespace SlotLedger

/-! ## Records that do not fit -/

theorem Bytes.littleEndian_mod (width n : Nat) :
    littleEndian width (n % 256 ^ width) = littleEndian width n := by
  induction width generalizing n with
  | zero => rfl
  | succ width ih =>
    -- The low octet and the octets above it each see the number modulo their own range.
    have hlow : UInt8.ofNat (n % 256 ^ (width + 1)) = UInt8.ofNat n := by
      apply UInt8.toNat_inj.mp
      rw [UInt8.toNat_ofNat', UInt8.toNat_ofNat', Nat.pow_succ']
      exact Nat.mod_mul_right_mod n 256 (256 ^ width)
    have hhigh : n % 256 ^ (width + 1) / 256 = n / 256 % 256 ^ width := by
      rw [Nat.pow_succ']
      exact Nat.mod_mul_right_div_self n 256 (256 ^ width)
    rw [littleEndian, littleEndian, hlow, hhigh, ih]

/-- A length that is zero or too great ends the reading. -/
theorem readFrames_of_invalid {a b c d : UInt8} {length : Nat}
    (hlength : Bytes.ofLittleEndian [a, b, c, d] = length)
    (hinvalid : length = 0 ∨ maxFrameLength < length) (offset : Nat) (number : UInt64)
    (rest : Bytes) :
    readFrames offset number (a :: b :: c :: d :: rest) = .error (.invalidFrame length offset) := by
  rw [readFrames, hlength, if_pos hinvalid]

theorem readFrames_of_invalid_length {length : Nat} (hrange : length < 256 ^ 4)
    (hinvalid : length = 0 ∨ maxFrameLength < length) (offset : Nat) (number : UInt64)
    (rest : Bytes) :
    readFrames offset number (Bytes.littleEndian 4 length ++ rest) =
      .error (.invalidFrame length offset) := by
  have hread := Bytes.ofLittleEndian_littleEndian 4 length
  rw [Nat.pow_eq, Nat.mod_eq_of_lt hrange] at hread
  exact readFrames_of_invalid hread hinvalid offset number rest

/-- Every group of a number but the last says that another one follows. -/
theorem Wire.exists_varint_of_le {n : Nat} (hn : 2 ^ 21 ≤ n) :
    ∃ a b c more, varint n = a :: b :: c :: more ∧ 128 ≤ c.toNat := by
  -- A group is marked while more than seven bits are left, as after two groups of 2^21.
  have hgroup : ∀ more m, 128 ≤ m →
      varintGroups (more + 1) m = UInt8.ofNat (m % 128 + 128) :: varintGroups more (m / 128) := by
    intro more m hm
    rw [varintGroups, if_neg (by omega)]
  refine ⟨UInt8.ofNat (n % 128 + 128), UInt8.ofNat (n / 128 % 128 + 128),
    UInt8.ofNat (n / 128 / 128 % 128 + 128), varintGroups 6 (n / 128 / 128 / 128), ?_, ?_⟩
  · rw [varint, hgroup 8 n (by omega), hgroup 7 (n / 128) (by omega),
      hgroup 6 (n / 128 / 128) (by omega)]
  · rw [toNat_ofNat_of_lt (by omega)]
    exact Nat.le_add_left _ _

/-- The octets of a long kind, read as those of a frame, begin with a length that is too great. -/
theorem readFrames_of_long_kind {kind : RecordKind}
    (hlong : 2 ^ 21 ≤ (Wire.encode kind.fields).length) (offset : Nat) (number : UInt64)
    (rest : Bytes) :
    ∃ error, readFrames offset number (Wire.Field.encode
      ⟨kind.number, .delimited (Wire.encode kind.fields)⟩ ++ rest) = .error error := by
  obtain ⟨a, b, c, more, hcount, hc⟩ := Wire.exists_varint_of_le hlong
  have hkey : ∃ k, Wire.key kind.number 2 = [k] := by
    cases kind <;> exact ⟨_, rfl⟩
  obtain ⟨k, hkey⟩ := hkey
  have hoctets : Wire.Field.encode ⟨kind.number, .delimited (Wire.encode kind.fields)⟩ ++ rest =
      k :: a :: b :: c :: (more ++ Wire.encode kind.fields ++ rest) := by
    simp only [Wire.Field.encode, Wire.Value.wireType, hkey, hcount]
    simp
  have hlength : maxFrameLength < Bytes.ofLittleEndian [k, a, b, c] := by
    simp only [Bytes.ofLittleEndian, maxFrameLength]
    omega
  rw [hoctets]
  exact ⟨_, readFrames_of_invalid rfl (.inr hlength) offset number _⟩

namespace LogEntry

/-- A record that is cut behind its number is a message without a kind, and the kind is what is left
behind it. -/
theorem decode?_and_drop_of_take_eq {e : LogEntry} {length : Nat}
    (hnumber : e.encode.take length = Wire.encode (Wire.natField 1 e.sequence.toNat))
    (hshort : (e.encode.take length).length < 2 ^ 64) :
    RecordMessage.decode? (e.encode.take length) = some ⟨e.sequence, none⟩ ∧
      e.encode.drop length = Wire.Field.encode
        ⟨(recordKind e.record).number, .delimited (Wire.encode (recordKind e.record).fields)⟩ := by
  constructor
  · have halone : (RecordMessage.mk e.sequence none).encode = e.encode.take length := by
      rw [hnumber, RecordMessage.encode, RecordMessage.fields, List.append_nil]
    rw [← halone] at hshort ⊢
    exact RecordMessage.decode?_encode hshort
  · have hwhole := (List.take_append_drop length e.encode).trans e.encode_eq
    rw [hnumber] at hwhole
    exact List.append_cancel_left hwhole

/-- A record is long only if its kind says much. -/
theorem le_length_encode_fields {e : LogEntry} (hlong : 2 ^ 32 ≤ e.encode.length) :
    2 ^ 21 ≤ (Wire.encode (recordKind e.record).fields).length := by
  have hfirst := Wire.length_encode_natField_le 1 e.sequence.toNat
  have hfield := Wire.Field.length_encode_delimited_le (recordKind e.record).number
    (Wire.encode (recordKind e.record).fields)
  rw [encode_eq, List.length_append] at hlong
  omega

end LogEntry

/-- A record that is cut behind a length too small for it is no message, or its number alone. -/
theorem readFrames_of_cut {e : LogEntry} (hlong : 2 ^ 32 ≤ e.encode.length)
    (hshort : e.encode.length < 2 ^ 64) {length : Nat} (hpositive : 0 < length)
    (hmax : length ≤ maxFrameLength) (offset : Nat) (number : UInt64) (rest : Bytes) :
    ∃ error, readFrames offset number (Bytes.littleEndian 4 length ++ (e.encode ++ rest)) =
      .error error := by
  have hlimit : maxFrameLength = 2 ^ 24 := rfl
  have hcut : length ≤ e.encode.length := by omega
  have hthere : ¬ (e.encode ++ rest).length < length := by
    rw [List.length_append]
    omega
  have hlength : (e.encode.take length).length = length := List.length_take_of_le hcut
  rw [readFrames_littleEndian_append hpositive hmax, if_neg hthere,
    List.take_append_of_le_length hcut, List.drop_append_of_le_length hcut]
  obtain hnil | hnumber | hnone := LogEntry.decode?_of_isPrefix hshort
    (List.take_prefix length e.encode) (by omega)
  · rw [hnil] at hlength
    exact absurd hlength (Nat.ne_of_lt hpositive)
  · -- What is left is the number, and the kind behind it is taken for a frame.
    obtain ⟨hdecoded, hkind⟩ := LogEntry.decode?_and_drop_of_take_eq hnumber (by omega)
    rw [hdecoded, hkind]
    dsimp only
    split
    · obtain ⟨error, herror⟩ := readFrames_of_long_kind
        (LogEntry.le_length_encode_fields hlong) (offset + 4 + length) (number + 1) rest
      rw [herror]
      exact ⟨error, rfl⟩
    · exact ⟨_, rfl⟩
  · rw [hnone]
    exact ⟨_, rfl⟩

/-- **A record that does not fit is not read**, whatever follows it.  The error tells its length
unless four octets cannot hold it. -/
theorem readFrames_of_not_fits {e : LogEntry} (hlong : ¬ e.Fits)
    (hshort : e.encode.length < 2 ^ 64) (offset : Nat) (number : UInt64) (rest : Bytes) :
    ∃ error, readFrames offset number (frame e.encode ++ rest) = .error error ∧
      (e.encode.length < 2 ^ 32 → error = .invalidFrame e.encode.length offset) := by
  have hmax : maxFrameLength < e.encode.length := Nat.lt_of_not_le hlong
  rw [frame, List.append_assoc]
  by_cases hfour : e.encode.length < 256 ^ 4
  · exact ⟨_, readFrames_of_invalid_length hfour (.inr hmax) offset number _, fun _ => rfl⟩
  · -- Four octets hold the length modulo 2^32 only, and that may be a length that is allowed.
    have hrange : e.encode.length % 256 ^ 4 < 256 ^ 4 := Nat.mod_lt _ (by decide)
    have h32 : ¬ e.encode.length < 2 ^ 32 := hfour
    rw [← Bytes.littleEndian_mod]
    generalize e.encode.length % 256 ^ 4 = length at hrange
    by_cases hinvalid : length = 0 ∨ maxFrameLength < length
    · exact ⟨_, readFrames_of_invalid_length hrange hinvalid offset number _,
        fun h => absurd h h32⟩
    · obtain ⟨hpositive, hallowed⟩ := not_or.mp hinvalid
      obtain ⟨error, herror⟩ := readFrames_of_cut (Nat.le_of_not_lt h32) hshort
        (Nat.pos_of_ne_zero hpositive) (Nat.le_of_not_lt hallowed) offset number rest
      exact ⟨error, herror, fun h => absurd h h32⟩

section LongRecord

variable {front later : List LogEntry} {e : LogEntry}

/-- **The first record that does not fit** makes the octets of a log unreadable. -/
theorem readMessages_of_not_fits (hnumbered : NumberedFrom 1 (front ++ e :: later))
    (hfront : ∀ r ∈ front, r.Fits) (hlong : ¬ e.Fits) (hshort : e.encode.length < 2 ^ 64) :
    ∃ error, readMessages (logOctets (front ++ e :: later)) = .error error ∧
      (e.encode.length < 2 ^ 32 →
        error = .invalidFrame e.encode.length (logOctets front).length) := by
  obtain ⟨hfirst, -⟩ := numberedFrom_append.mp hnumbered
  obtain ⟨error, herror, hlength⟩ := readFrames_of_not_fits hlong hshort
    (0 + (logOctets front).length) (1 + UInt64.ofNat front.length) (logOctets later)
  refine ⟨error, ?_, ?_⟩
  · rw [readMessages, logOctets_append, logOctets_cons,
      readFrames_logOctets_append hfirst hfront, herror]
    rfl
  · rw [Nat.zero_add] at hlength
    exact hlength

theorem length_encode_le_logOctets :
    e.encode.length ≤ (logOctets (front ++ e :: later)).length := by
  rw [logOctets_append, logOctets_cons, List.length_append, List.length_append, length_frame]
  omega

end LongRecord

/-- Records of which one does not fit have a first one that does not. -/
theorem exists_first_not_fits {entries : List LogEntry} (h : ¬ ∀ e ∈ entries, e.Fits) :
    ∃ front e later, entries = front ++ e :: later ∧ (∀ r ∈ front, r.Fits) ∧ ¬ e.Fits := by
  induction entries with
  | nil => exact absurd (List.forall_mem_nil _) h
  | cons first rest ih =>
    by_cases hfirst : first.Fits
    · obtain ⟨front, e, later, rfl, hfront, he⟩ :=
        ih fun hrest => h (List.forall_mem_cons.mpr ⟨hfirst, hrest⟩)
      exact ⟨first :: front, e, later, rfl, List.forall_mem_cons.mpr ⟨hfirst, hfront⟩, he⟩
    · exact ⟨[], first, rest, rfl, List.forall_mem_nil _, hfirst⟩

/-! ## Logs in use -/

/-- What is done with a log: it takes a record, or it is closed and opened again. -/
inductive LogCall where
  | append (e : LogEntry)
  | reopen

/-- A log in use, and the records that it acknowledged. -/
structure LogRun where
  log : OperationLog
  disk : Disk
  records : List LogEntry

namespace LogRun

open OperationLog

/-- A log after a call.  It stays open when it refuses a record, but not when it fails to open. -/
def step (x : LogRun) : LogCall → Except LogError LogRun
  | .append e =>
    match x.log.append x.disk e with
    | .ok (log, disk) => .ok ⟨log, disk, x.records ++ [e]⟩
    | .error _ => .ok x
  | .reopen =>
    match openAt x.disk x.log.path with
    | (.ok log, disk) => .ok ⟨log, disk, x.records⟩
    | (.error error, _) => .error error

/-- A log after calls, up to the first time that it cannot be opened. -/
def run (x : LogRun) (calls : List LogCall) : Except LogError LogRun := calls.foldlM step x

/-- What holds of a log at a path that can be read: it knows how many records it acknowledged, and
its file has their frames.  A log that acknowledged nothing may have no file. -/
structure Sound (x : LogRun) (path : Path) : Prop where
  path_eq : x.log.path = path
  last : x.log.lastSequence = UInt64.ofNat x.records.length
  numbered : NumberedFrom 1 x.records
  place : ∃ place, x.disk.place? path = some place
  canRead : x.disk.canRead path = true
  content : x.disk.content? path = some (logOctets x.records) ∨
    x.disk.has path = false ∧ x.records = []
  short : (logOctets x.records).length ≤ Disk.maxFileLength

section Sound

variable {x : LogRun} {path : Path} (h : x.Sound path)

include h

theorem Sound.length_lt : x.records.length + 1 < 2 ^ 64 := by
  have hcount := Nat.le_trans (length_le_length_logOctets x.records) h.short
  exact Nat.lt_of_le_of_lt (Nat.succ_le_succ hcount) (by decide)

theorem Sound.toNat_lastSequence : x.log.lastSequence.toNat = x.records.length := by
  rw [h.last]
  exact UInt64.toNat_ofNat_of_lt' (Nat.lt_of_succ_lt h.length_lt)

theorem Sound.next : x.log.lastSequence + 1 = UInt64.ofNat (x.records.length + 1) := by
  rw [h.last, UInt64.ofNat_add]
  rfl

/-- The file has the octets of the records, and no octets where there is no file. -/
theorem Sound.getD_content : (x.disk.content? path).getD [] = logOctets x.records := by
  rcases h.content with hcontent | ⟨hhas, hnil⟩
  · rw [hcontent]
    rfl
  · rw [hnil]
    exact Disk.getD_content?_of_not_has hhas

/-- **A record that is acknowledged** is the next one, and its frame is at the end of the file. -/
theorem Sound.append {e : LogEntry} {log : OperationLog} {disk : Disk}
    (happend : x.log.append x.disk e = .ok (log, disk)) :
    Sound ⟨log, disk, x.records ++ [e]⟩ path := by
  obtain ⟨hcontent, hshort⟩ := content?_of_append happend
  obtain ⟨hnext, htaken, rfl⟩ := append_eq_ok_iff.mp happend
  rw [h.path_eq] at hcontent hshort htaken
  rw [h.getD_content, ← logOctets_concat] at hcontent hshort
  have hnumber : e.sequence = UInt64.ofNat (x.records ++ [e]).length := by
    rw [hnext, h.next, List.length_append]
    rfl
  -- Appending is writing, which moves no place and takes no right away.
  have hwrite : ∃ content, x.disk.write? path content = some disk := by
    rw [Disk.append?] at htaken
    split at htaken
    · exact ⟨_, htaken⟩
    · cases htaken
  obtain ⟨content, hwrite⟩ := hwrite
  obtain ⟨place, hplace⟩ := h.place
  exact
    { path_eq := h.path_eq
      last := hnumber
      numbered := numberedFrom_append.mpr ⟨h.numbered, by
        rw [hnext, h.last, UInt64.add_comm], trivial⟩
      place := ⟨place, (Disk.place?_of_write? hwrite path).trans hplace⟩
      canRead := (Disk.canRead_of_write? hwrite path).trans h.canRead
      content := .inl hcontent
      short := hshort }

end Sound

section Reopened

variable {x : LogRun} {directory : Path} {name : String} (hplain : Path.IsPlain name)
  (h : x.Sound (directory.join name))

include hplain h

theorem Sound.openAt_eq : openAt x.disk (directory.join name) =
    ((lastSequenceAt x.disk (directory.join name)).map (⟨directory.join name, ·⟩), x.disk) := by
  obtain ⟨place, hplace⟩ := h.place
  rw [openAt, Disk.makeDirectories_parent_join hplain hplace]

/-- **What was acknowledged is read back** if all of it fits. -/
theorem Sound.read_back (hfits : ∀ e ∈ x.records, e.Fits) :
    x.log.load x.disk = .ok x.records ∧ OpensWith x.disk (directory.join name) x.records := by
  have hcount : x.records.length < 2 ^ 64 := Nat.lt_of_succ_lt h.length_lt
  rcases h.content with hcontent | ⟨hhas, hnil⟩
  · have hload := load_of_content? hcontent h.numbered hfits h.path_eq
    rw [if_pos h.canRead] at hload
    exact ⟨hload, opensWith_of_readMessages hplain hcontent h.canRead hcount
      (readMessages_logOctets h.numbered hfits)⟩
  · -- Without a file there is nothing to read, and nothing was acknowledged.
    have hload : ∀ log : OperationLog, log.path = directory.join name →
        log.load x.disk = .ok x.records := by
      intro log hpath
      rw [load, hpath, hhas, hnil]
      rfl
    refine ⟨hload x.log h.path_eq, ⟨directory.join name, 0⟩, ?_, ?_, hload _ rfl⟩
    · rw [h.openAt_eq hplain, lastSequenceAt, hhas]
      rfl
    · rw [hnil]
      rfl

/-- **A record that does not fit** makes the log unreadable, and it cannot be opened again. -/
theorem Sound.unreadable {front later : List LogEntry} {e : LogEntry}
    (hrecords : x.records = front ++ e :: later) (hfront : ∀ r ∈ front, r.Fits)
    (hlong : ¬ e.Fits) :
    ∃ error, openAt x.disk (directory.join name) = (.error error, x.disk) ∧
      x.log.load x.disk = .error error ∧
      (e.encode.length < 2 ^ 32 →
        error = .invalidFrame e.encode.length (logOctets front).length) := by
  have hshort : e.encode.length < 2 ^ 64 := by
    have hwhole := hrecords ▸ h.short
    exact Nat.lt_of_le_of_lt (Nat.le_trans length_encode_le_logOctets hwhole) (by decide)
  obtain ⟨error, hread, hlength⟩ :=
    readMessages_of_not_fits (hrecords ▸ h.numbered) hfront hlong hshort
  rw [← hrecords] at hread
  -- A record was acknowledged, so there is a file.
  have hcontent : x.disk.content? (directory.join name) = some (logOctets x.records) := by
    rcases h.content with hcontent | ⟨-, hnil⟩
    · exact hcontent
    · rw [hnil] at hrecords
      simp at hrecords
  refine ⟨error, openAt_of_readMessages_error hplain hcontent h.canRead hread, ?_, hlength⟩
  rw [load, h.path_eq, if_pos (Disk.has_of_content? hcontent),
    messages_of_content? hcontent h.canRead, hread]
  rfl

/-- A log that is opened again knows how many records it acknowledged, and all of them fit. -/
theorem Sound.reopen {log : OperationLog} {disk : Disk}
    (hopen : openAt x.disk x.log.path = (.ok log, disk)) :
    (∀ e ∈ x.records, e.Fits) ∧ Sound ⟨log, disk, x.records⟩ (directory.join name) := by
  rw [h.path_eq] at hopen
  -- A record that does not fit would have kept the log from opening.
  have hfits : ∀ e ∈ x.records, e.Fits := by
    by_contra hnot
    obtain ⟨front, e, later, hrecords, hfront, hlong⟩ := exists_first_not_fits hnot
    obtain ⟨error, herror, -⟩ := h.unreadable hplain hrecords hfront hlong
    rw [herror] at hopen
    cases hopen
  obtain ⟨-, log', hopen', hlast, -⟩ := h.read_back hplain hfits
  rw [hopen'] at hopen
  obtain ⟨hlog, rfl⟩ := Prod.mk.inj hopen
  obtain rfl := Except.ok.inj hlog
  refine ⟨hfits, { h with path_eq := (of_openAt hopen').1, last := ?_ }⟩
  rw [← hlast]
  exact UInt64.ofNat_toNat.symm

/-- **Every call keeps a log sound**, unless it cannot be opened again. -/
theorem Sound.step {call : LogCall} {y : LogRun} (hstep : x.step call = .ok y) :
    y.Sound (directory.join name) := by
  cases call with
  | append e =>
    rw [LogRun.step] at hstep
    split at hstep
    · rename_i log disk happend
      obtain rfl := Except.ok.inj hstep
      exact h.append happend
    · obtain rfl := Except.ok.inj hstep
      exact h
  | reopen =>
    rw [LogRun.step] at hstep
    split at hstep
    · rename_i log disk hopen
      obtain rfl := Except.ok.inj hstep
      exact (h.reopen hplain hopen).2
    · cases hstep

/-- A call fails only where the log is opened again and one of its records does not fit. -/
theorem Sound.step_error {call : LogCall} {error : LogError} (hstep : x.step call = .error error) :
    call = .reopen ∧ ∃ e ∈ x.records, ¬ e.Fits := by
  cases call with
  | append e =>
    rw [LogRun.step] at hstep
    split at hstep <;> cases hstep
  | reopen =>
    refine ⟨rfl, ?_⟩
    by_contra hnone
    have hfits : ∀ e ∈ x.records, e.Fits := by simpa using hnone
    obtain ⟨-, log, hopen, -⟩ := h.read_back hplain hfits
    rw [LogRun.step, h.path_eq, hopen] at hstep
    cases hstep

end Reopened

theorem run_append {x : LogRun} {e : LogEntry} {log : OperationLog} {disk : Disk}
    (h : x.log.append x.disk e = .ok (log, disk)) :
    run x [.append e] = .ok ⟨log, disk, x.records ++ [e]⟩ := by
  rw [run, List.foldlM_cons, step, h]
  rfl

section Run

variable {disk d : Disk} {directory : Path} {name : String} (hplain : Path.IsPlain name)
  {log : OperationLog} (hopen : openAt disk (directory.join name) = (.ok log, d))
  (habsent : d.has (directory.join name) = false)
  (hplace : ∃ place, d.place? (directory.join name) = some place)
  (hread : d.canRead (directory.join name) = true)

include hopen habsent hplace hread

theorem sound_start : Sound ⟨log, d, []⟩ (directory.join name) where
  path_eq := (of_openAt hopen).1
  last := lastSequence_of_openAt_blank hopen (Disk.getD_content?_of_not_has habsent)
  numbered := trivial
  place := hplace
  canRead := hread
  content := .inr ⟨habsent, rfl⟩
  short := Nat.zero_le _

include hplain

/-- **A log in use is sound after every run**, and a run ends early only where the log is opened
again with a record that does not fit. -/
theorem sound_run (calls : List LogCall) :
    (∀ x, run ⟨log, d, []⟩ calls = .ok x → x.Sound (directory.join name)) ∧
      ∀ error, run ⟨log, d, []⟩ calls = .error error →
        ∃ front later x, calls = front ++ .reopen :: later ∧ run ⟨log, d, []⟩ front = .ok x ∧
          ∃ e ∈ x.records, ¬ e.Fits := by
  -- On the calls from the last one back: the log is sound before it, if it came so far.
  induction calls using List.reverseRecOn with
  | nil =>
    refine ⟨fun x hrun => ?_, fun error hrun => by cases hrun⟩
    obtain rfl := Except.ok.inj hrun
    exact sound_start hopen habsent hplace hread
  | append_singleton front call ih =>
    obtain ⟨hsound, hfailed⟩ := ih
    have hlast : ∀ x : LogRun, [call].foldlM step x = x.step call := by
      intro x
      rw [List.foldlM_cons]
      cases x.step call <;> rfl
    have hrun_eq : run ⟨log, d, []⟩ (front ++ [call]) =
        run ⟨log, d, []⟩ front >>= fun x => x.step call := by
      rw [run, List.foldlM_append, run]
      exact congrArg _ (funext hlast)
    rw [hrun_eq]
    refine ⟨fun y hrun => ?_, fun error hrun => ?_⟩
    · obtain ⟨x, hx, hstep⟩ := bind_eq_ok_iff.mp hrun
      exact (hsound x hx).step hplain hstep
    · obtain hfront | ⟨x, hx, hstep⟩ := bind_eq_error_iff.mp hrun
      · obtain ⟨before, later, x, rfl, hx, he⟩ := hfailed error hfront
        exact ⟨before, later ++ [call], x, by simp, hx, he⟩
      · obtain ⟨rfl, he⟩ := (hsound x hx).step_error hplain hstep
        exact ⟨front, [], x, rfl, hx, he⟩

/-- **Which acknowledged records are read back.**  After every run of a log that was absent its
last number is how many records it acknowledged, and a record with another number than the next one
changes nothing.  If all acknowledged records fit, they are loaded in order, and the log opens with
them.  The first one that does not fit is an error from then on, for loading and for opening, and
nothing else keeps a run from going on. -/
theorem acknowledged_run (calls : List LogCall) :
    (∀ x, run ⟨log, d, []⟩ calls = .ok x →
      x.log.lastSequence.toNat = x.records.length ∧
        (∀ e, e.sequence.toNat ≠ x.records.length + 1 →
          x.log.append x.disk e = .error
            (.sequenceViolation (UInt64.ofNat (x.records.length + 1)) e.sequence) ∧
              x.step (.append e) = .ok x) ∧
        ((∀ e ∈ x.records, e.Fits) → x.log.load x.disk = .ok x.records ∧
          OpensWith x.disk (directory.join name) x.records) ∧
        ∀ front e later, x.records = front ++ e :: later → (∀ r ∈ front, r.Fits) → ¬ e.Fits →
          ∃ error, openAt x.disk (directory.join name) = (.error error, x.disk) ∧
            x.log.load x.disk = .error error ∧
            (e.encode.length < 2 ^ 32 →
              error = .invalidFrame e.encode.length (logOctets front).length)) ∧
      ∀ error, run ⟨log, d, []⟩ calls = .error error →
        ∃ front later x, calls = front ++ .reopen :: later ∧ run ⟨log, d, []⟩ front = .ok x ∧
          ∃ e ∈ x.records, ¬ e.Fits := by
  obtain ⟨hsound, hfailed⟩ := sound_run hplain hopen habsent hplace hread calls
  refine ⟨fun x hrun => ?_, hfailed⟩
  have hx := hsound x hrun
  refine ⟨hx.toNat_lastSequence, fun e hnumber => ?_, hx.read_back hplain, ?_⟩
  · have hnext : e.sequence ≠ x.log.lastSequence + 1 := by
      rintro heq
      rw [heq, hx.next, UInt64.toNat_ofNat_of_lt' hx.length_lt] at hnumber
      exact hnumber rfl
    have hrefused : x.log.append x.disk e = .error
        (.sequenceViolation (UInt64.ofNat (x.records.length + 1)) e.sequence) := by
      rw [OperationLog.append, if_neg hnext, hx.next]
    refine ⟨hrefused, ?_⟩
    rw [step, hrefused]
  · intro front e later hrecords hfront hlong
    exact hx.unreadable hplain hrecords hfront hlong

end Run

/-- A text has an octet for each character at least, and four at most. -/
theorem length_utf8_bounds (chars : List Char) :
    chars.length ≤ (Bytes.utf8 (String.ofList chars)).length ∧
      (Bytes.utf8 (String.ofList chars)).length ≤ 4 * chars.length := by
  rw [Bytes.utf8, String.toByteArray_ofList]
  induction chars with
  | nil => exact ⟨Nat.le_refl 0, Nat.le_refl 0⟩
  | cons c rest ih =>
    have hpositive := Char.utf8Size_pos c
    have hfour := Char.utf8Size_le_four c
    have hsize : (List.utf8Encode [c]).data.toList.length = c.utf8Size := by
      rw [List.utf8Encode_singleton, List.data_toByteArray, String.length_utf8EncodeChar]
    rw [List.utf8Encode_cons, ByteArray.data_append, Array.toList_append, List.length_append,
      hsize, List.length_cons]
    omega

/-- A deployment whose name is longer than a frame may be. -/
def longDeployment : LogEntry :=
  .deploy ⟨String.ofList (List.replicate (maxFrameLength + 1) 'A'), 0xd0, true⟩

theorem length_encode_longDeployment :
    maxFrameLength < longDeployment.encode.length ∧ longDeployment.encode.length < 2 ^ 32 := by
  have hname := length_utf8_bounds (List.replicate (maxFrameLength + 1) 'A')
  have hlong := longDeployment.length_nameOctets_lt
  have hshort := longDeployment.length_encode_le
  have hlimit : maxFrameLength = 2 ^ 24 := rfl
  have hoctets : ∀ d, (LogEntry.deploy d).nameOctets = Bytes.utf8 d.implementation :=
    fun _ => rfl
  rw [longDeployment, hoctets] at hlong hshort
  rw [List.length_replicate] at hname
  dsimp only at hlong hshort
  rw [longDeployment]
  omega

/-- A disk takes octets where a file can be written and is not there yet. -/
theorem exists_append? {d : Disk} {path : Path} {place : Place}
    (hplace : d.place? path = some place) (hcan : Disk.canWriteAt d.root place = true)
    (hfree : place ∉ d.unwritable) (habsent : d.content? path = none) {octets : Bytes}
    (hlength : octets.length ≤ Disk.maxFileLength) : ∃ e, d.append? path octets = some e := by
  rw [Disk.append?, habsent, Option.getD_none, List.nil_append, if_pos hlength]
  exact ⟨_, Disk.write?_eq_some_iff.mpr ⟨place, hplace, hcan, hfree, rfl⟩⟩

/-- The log takes the deployment and cannot be opened afterwards. -/
theorem acknowledged_run_longDeployment :
    ∃ log d x, openAt .empty logInOps = (.ok log, d) ∧
      run ⟨log, d, []⟩ [.append longDeployment] = .ok x ∧ x.records = [longDeployment] ∧
      openAt x.disk logInOps =
        (.error (.invalidFrame longDeployment.encode.length 0), x.disk) := by
  have htest : passes (openAt .empty logInOps).1 (fun log =>
      let d := (openAt .empty logInOps).2
      decide (log = ⟨logInOps, 0⟩) && !d.has logInOps && d.canRead logInOps &&
        (d.content? logInOps).isNone &&
        (d.place? logInOps).any fun place =>
          Disk.canWriteAt d.root place && decide (place ∉ d.unwritable)) = true := by
    decide +kernel
  obtain ⟨log, hlog, htest⟩ := exists_of_passes htest
  simp only [Bool.and_eq_true, Bool.not_eq_true', Option.isNone_iff_eq_none, Option.any_eq_true,
    decide_eq_true_eq] at htest
  obtain ⟨⟨⟨⟨rfl, habsent⟩, hread⟩, hnone⟩, place, hplace, hcan, hfree⟩ := htest
  generalize hd : (openAt .empty logInOps).2 = d at habsent hread hnone hplace hcan hfree
  have hopen : openAt .empty logInOps = (.ok ⟨logInOps, 0⟩, d) := Prod.ext hlog hd
  obtain ⟨hlong, hshort⟩ := length_encode_longDeployment
  have hnumber : longDeployment.sequence = 1 := rfl
  -- The deployment itself is too long to be looked at.
  generalize longDeployment = e at hlong hshort hnumber ⊢
  have hlength : (frame e.encode).length ≤ Disk.maxFileLength := by
    have hlimit : Disk.maxFileLength = 2 ^ 63 - 1 := rfl
    rw [length_frame]
    omega
  obtain ⟨d', htaken⟩ := exists_append? hplace hcan hfree hnone hlength
  have happend : OperationLog.append ⟨logInOps, 0⟩ d e = .ok (⟨logInOps, e.sequence⟩, d') :=
    append_eq_ok_iff.mpr ⟨hnumber.trans (by decide), htaken, rfl⟩
  have hrun : run ⟨⟨logInOps, 0⟩, d, []⟩ [.append e] =
      .ok ⟨⟨logInOps, e.sequence⟩, d', [e]⟩ := run_append happend
  refine ⟨_, d, _, hopen, hrun, rfl, ?_⟩
  obtain ⟨hacknowledged, -⟩ := acknowledged_run ⟨by decide, by decide, by decide⟩ hopen habsent
    ⟨place, hplace⟩ hread [.append e]
  obtain ⟨-, -, -, hunreadable⟩ := hacknowledged _ hrun
  obtain ⟨error, herror, -, hframe⟩ := hunreadable [] e [] rfl
    (List.forall_mem_nil _) (Nat.not_le_of_lt hlong)
  rw [hframe hshort] at herror
  exact herror

end LogRun

end SlotLedger
