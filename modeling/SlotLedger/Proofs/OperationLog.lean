import SlotLedger.OperationLog
import SlotLedger.Proofs.Disk.Parent
import SlotLedger.Proofs.Outcome
import SlotLedger.Proofs.Wire.Records

/-!
# Logs are read back

A log that holds the frames of records numbered from one, none of them longer than a frame may be,
is read back as these records.  Adding a record adds its frame at the end and changes no other file.

## Main definitions

* `logOctets`: the octets of a log that holds given records
* `NumberedFrom`: records with consecutive numbers

## Main results

* `readFrames_logOctets_append`: whole frames are read, whatever follows them
* `readMessages_logOctets`: what is read from the octets of a log
* `OperationLog.load_of_content?`, `OperationLog.lastSequenceAt_of_content?`: a log is read back
* `OperationLog.append_eq_ok_iff`: when a record is added, and what the file holds then
-/

namespace SlotLedger

/-- The octets of a log that holds the given records. -/
def logOctets (entries : List LogEntry) : Bytes := entries.flatMap fun e => frame e.encode

theorem logOctets_append (entries later : List LogEntry) :
    logOctets (entries ++ later) = logOctets entries ++ logOctets later := List.flatMap_append

theorem logOctets_concat (entries : List LogEntry) (e : LogEntry) :
    logOctets (entries ++ [e]) = logOctets entries ++ frame e.encode := by
  rw [logOctets_append]
  simp [logOctets]

/-- No frame is empty. -/
theorem length_le_length_logOctets (entries : List LogEntry) :
    entries.length ≤ (logOctets entries).length := by
  induction entries with
  | nil => exact Nat.zero_le _
  | cons e rest ih =>
    have hframe : 0 < (frame e.encode).length := by
      rw [frame, List.length_append, Bytes.length_littleEndian]
      exact Nat.lt_add_right _ (by decide)
    rw [logOctets, List.flatMap_cons, List.length_append, List.length_cons, ← logOctets]
    omega

/-- The records are numbered one after another, the first with `number`. -/
def NumberedFrom (number : UInt64) : List LogEntry → Prop
  | [] => True
  | e :: rest => e.sequence = number ∧ NumberedFrom (number + 1) rest

theorem number_add_succ (number : UInt64) (count : Nat) :
    number + UInt64.ofNat (count + 1) = number + 1 + UInt64.ofNat count := by
  rw [UInt64.ofNat_add, UInt64.add_assoc, UInt64.add_comm 1]
  rfl

theorem numberedFrom_append {number : UInt64} {entries later : List LogEntry} :
    NumberedFrom number (entries ++ later) ↔
      NumberedFrom number entries ∧ NumberedFrom (number + UInt64.ofNat entries.length) later := by
  induction entries generalizing number with
  | nil => simp [NumberedFrom]
  | cons e rest ih =>
    rw [List.cons_append, NumberedFrom, NumberedFrom, ih, List.length_cons, number_add_succ,
      and_assoc]

/-- The number of the last record is how many there are. -/
theorem sequence_getLast? {entries : List LogEntry} (h : NumberedFrom 1 entries) :
    (entries.getLast?.map LogEntry.sequence).getD 0 = UInt64.ofNat entries.length := by
  rcases List.eq_nil_or_concat entries with rfl | ⟨front, last, rfl⟩
  · rfl
  · rw [List.concat_eq_append] at h ⊢
    obtain ⟨-, hlast, -⟩ := numberedFrom_append.mp h
    rw [List.getLast?_concat, List.length_append, UInt64.ofNat_add, UInt64.add_comm]
    exact hlast

/-- The octets of a record's frame are short enough to be read back. -/
def LogEntry.Fits (e : LogEntry) : Prop := e.encode.length ≤ maxFrameLength

instance (e : LogEntry) : Decidable e.Fits := inferInstanceAs (Decidable (_ ≤ _))

/-! ## Frames -/

@[simp] theorem length_frame (octets : Bytes) : (frame octets).length = 4 + octets.length := by
  rw [frame, List.length_append, Bytes.length_littleEndian]

theorem readFrames_of_length_lt {octets : Bytes} (h : octets.length < 4) (offset : Nat)
    (number : UInt64) : readFrames offset number octets = .ok [] := by
  rw [readFrames]
  rintro a b c d rest rfl
  simp only [List.length_cons] at h
  omega

/-- A length says how many of the octets after it are those of the record. -/
theorem readFrames_littleEndian_append {length : Nat} (hpositive : 0 < length)
    (hmax : length ≤ maxFrameLength) (offset : Nat) (number : UInt64) (rest : Bytes) :
    readFrames offset number (Bytes.littleEndian 4 length ++ rest) =
      if rest.length < length then .error (.truncated offset)
      else
        match RecordMessage.decode? (rest.take length) with
        | none => .error (.malformed offset)
        | some message =>
          if message.sequence = number then do
            let later ← readFrames (offset + 4 + length) (number + 1) (rest.drop length)
            return message :: later
          else .error (.sequenceViolation number message.sequence) := by
  have hlength : length < 256 ^ 4 := Nat.lt_of_le_of_lt hmax (by decide)
  have hfour : Bytes.littleEndian 4 length =
      [UInt8.ofNat length, UInt8.ofNat (length / 256), UInt8.ofNat (length / 256 / 256),
        UInt8.ofNat (length / 256 / 256 / 256)] := rfl
  have hread := Bytes.ofLittleEndian_littleEndian 4 length
  rw [hfour, Nat.pow_eq, Nat.mod_eq_of_lt hlength] at hread
  have hvalid : ¬ (length = 0 ∨ maxFrameLength < length) := by omega
  -- Taking octets ends with them, so too few are taken exactly where too few are there.
  have hthere : (rest.take length).length < length ↔ rest.length < length := by
    rw [List.length_take]
    omega
  rw [hfour, List.cons_append, List.cons_append, List.cons_append, List.cons_append,
    List.nil_append, readFrames, hread, if_neg hvalid]
  exact if_congr hthere rfl rfl

theorem LogEntry.length_encode_pos (e : LogEntry) : 0 < e.encode.length :=
  List.length_pos_iff.mpr e.encode_ne_nil

/-- **The first frame is read**, whatever follows it. -/
theorem readFrames_frame_append {e : LogEntry} (hfits : e.Fits) (offset : Nat) (rest : Bytes) :
    readFrames offset e.sequence (frame e.encode ++ rest) =
      (readFrames (offset + 4 + e.encode.length) (e.sequence + 1) rest).map
        (e.toMessage :: ·) := by
  have hlength : e.encode.length < 2 ^ 64 := Nat.lt_of_le_of_lt hfits (by decide)
  have hthere : ¬ (e.encode ++ rest).length < e.encode.length := by
    rw [List.length_append]
    omega
  have hdecoded : RecordMessage.decode? e.encode = some e.toMessage :=
    RecordMessage.decode?_encode hlength
  have hsequence : e.toMessage.sequence = e.sequence := rfl
  rw [frame, List.append_assoc, readFrames_littleEndian_append e.length_encode_pos hfits,
    if_neg hthere, List.take_left, List.drop_left, hdecoded]
  simp only [hsequence, if_true]
  cases readFrames (offset + 4 + e.encode.length) (e.sequence + 1) rest <;> rfl

/-- **Whole frames are read**, whatever follows them. -/
theorem readFrames_logOctets_append {entries : List LogEntry} {number : UInt64}
    (hnumbered : NumberedFrom number entries) (hfits : ∀ e ∈ entries, e.Fits) (offset : Nat)
    (rest : Bytes) :
    readFrames offset number (logOctets entries ++ rest) =
      (readFrames (offset + (logOctets entries).length)
        (number + UInt64.ofNat entries.length) rest).map
          (entries.map LogEntry.toMessage ++ ·) := by
  -- Every frame moves the offset by its length and the number by one.
  induction entries generalizing number offset with
  | nil =>
    have hzero : number + UInt64.ofNat ([] : List LogEntry).length = number := by simp
    rw [hzero]
    change readFrames offset number rest = (readFrames offset number rest).map id
    cases readFrames offset number rest <;> rfl
  | cons e later ih =>
    obtain ⟨rfl, hlater⟩ := hnumbered
    obtain ⟨he, hfits⟩ := List.forall_mem_cons.mp hfits
    have hoctets : logOctets (e :: later) = frame e.encode ++ logOctets later :=
      List.flatMap_cons
    have hoffset : offset + 4 + e.encode.length + (logOctets later).length =
        offset + (logOctets (e :: later)).length := by
      rw [hoctets, List.length_append, length_frame]
      omega
    rw [hoctets, List.append_assoc, readFrames_frame_append he, ih hlater hfits, hoffset,
      ← hoctets, List.length_cons, number_add_succ]
    cases readFrames (offset + (logOctets (e :: later)).length)
      (e.sequence + 1 + UInt64.ofNat later.length) rest <;> rfl

/-- **What is read from the octets of a log**: the messages of its records. -/
theorem readMessages_logOctets {entries : List LogEntry} (hnumbered : NumberedFrom 1 entries)
    (hfits : ∀ e ∈ entries, e.Fits) :
    readMessages (logOctets entries) = .ok (entries.map LogEntry.toMessage) := by
  have hread := readFrames_logOctets_append hnumbered hfits 0 []
  have hend : ∀ offset number, readFrames offset number [] = .ok [] :=
    readFrames_of_length_lt (by decide)
  rw [hend, List.append_nil] at hread
  rw [readMessages, hread]
  exact congrArg Except.ok (List.append_nil _)

theorem LogEntry.sequence_of_ofMessage {m : RecordMessage} {e : LogEntry}
    (h : ofMessage m = .ok e) : e.sequence = m.sequence := by
  unfold ofMessage at h
  split at h
  · cases h
  · obtain ⟨record, -, rfl⟩ := map_eq_ok_iff.mp h
    rfl

/-- **What is read is numbered**, whatever the octets are, and takes at least an octet each. -/
theorem numberedFrom_of_readFrames {offset : Nat} {number : UInt64} {octets : Bytes}
    {messages : List RecordMessage} {entries : List LogEntry}
    (hread : readFrames offset number octets = .ok messages)
    (hentries : messages.mapM (fun m => (LogEntry.ofMessage m).mapError LogError.record) =
      .ok entries) : NumberedFrom number entries ∧ entries.length ≤ octets.length := by
  fun_induction readFrames offset number octets generalizing messages entries with
  -- Only a whole frame with the next number and the end of the octets give messages.
  | case1 | case2 | case3 | case5 => cases hread
  | case4 offset a b c d rest length hvalid octets hthere message =>
    rename_i hdecoded ih
    obtain ⟨later, hlater, heq⟩ := bind_eq_ok_iff.mp hread
    obtain rfl := Except.ok.inj heq
    rw [List.mapM_cons] at hentries
    obtain ⟨e, he, hrest⟩ := bind_eq_ok_iff.mp hentries
    obtain ⟨others, hothers, heq⟩ := bind_eq_ok_iff.mp hrest
    obtain rfl := Except.ok.inj heq
    obtain ⟨hnumbered, hlength⟩ := ih hlater hothers
    have hsequence := LogEntry.sequence_of_ofMessage (mapError_eq_ok_iff.mp he)
    refine ⟨⟨hsequence, hnumbered⟩, ?_⟩
    rw [List.length_drop] at hlength
    simp only [List.length_cons]
    omega
  | case6 =>
    obtain rfl := Except.ok.inj hread
    obtain rfl := Except.ok.inj hentries
    exact ⟨trivial, Nat.zero_le _⟩

/-- Records have the numbers of their messages. -/
theorem map_sequence_of_mapM {messages : List RecordMessage} {entries : List LogEntry}
    (h : messages.mapM (fun m => (LogEntry.ofMessage m).mapError LogError.record) = .ok entries) :
    messages.map RecordMessage.sequence = entries.map LogEntry.sequence := by
  induction messages generalizing entries with
  | nil =>
    obtain rfl := Except.ok.inj h
    rfl
  | cons m later ih =>
    rw [List.mapM_cons] at h
    obtain ⟨e, he, h⟩ := bind_eq_ok_iff.mp h
    obtain ⟨rest, hrest, heq⟩ := bind_eq_ok_iff.mp h
    obtain rfl := Except.ok.inj heq
    rw [List.map_cons, List.map_cons, ih hrest,
      LogEntry.sequence_of_ofMessage (mapError_eq_ok_iff.mp he)]

theorem mapM_ofMessage (entries : List LogEntry) :
    (entries.map LogEntry.toMessage).mapM
        (fun m => (LogEntry.ofMessage m).mapError LogError.record) = .ok entries := by
  induction entries with
  | nil => rfl
  | cons e rest ih =>
    rw [List.map_cons, List.mapM_cons, LogEntry.ofMessage_toMessage, ih]
    rfl

/-! ## Logs -/

namespace OperationLog

variable {log : OperationLog} {disk : Disk}

/-- Messages are read from the octets of a file. -/
theorem content?_of_messages {path : Path} {found : List RecordMessage}
    (h : messages disk path = .ok found) :
    ∃ octets, disk.content? path = some octets ∧ readMessages octets = .ok found := by
  rw [messages, Disk.read?] at h
  split at h
  · cases h
  rename_i octets hoctets
  split at hoctets
  · exact ⟨octets, hoctets, h⟩
  · cases hoctets

/-- What is loaded are the records of the messages in a file, or nothing where there is none. -/
theorem of_load {entries : List LogEntry} (h : log.load disk = .ok entries) :
    (disk.has log.path = true ∧ ∃ found, messages disk log.path = .ok found ∧
        found.mapM (fun m => (LogEntry.ofMessage m).mapError LogError.record) = .ok entries) ∨
      disk.has log.path = false ∧ entries = [] := by
  unfold load at h
  split at h
  · rename_i hhas
    exact .inl ⟨hhas, bind_eq_ok_iff.mp h⟩
  · rename_i hhas
    exact .inr ⟨Bool.eq_false_of_not_eq_true hhas, (Except.ok.inj h).symm⟩

/-- The records that are loaded are numbered from one, and there is an octet for each. -/
theorem numberedFrom_of_load {entries : List LogEntry} (h : log.load disk = .ok entries) :
    NumberedFrom 1 entries ∧ entries.length ≤ ((disk.content? log.path).getD []).length := by
  obtain ⟨-, found, hmessages, hentries⟩ | ⟨-, rfl⟩ := of_load h
  · obtain ⟨octets, hoctets, hfound⟩ := content?_of_messages hmessages
    rw [hoctets]
    exact numberedFrom_of_readFrames hfound hentries
  · exact ⟨trivial, Nat.zero_le _⟩

/-- The number of the last record is how many are loaded. -/
theorem lastSequenceAt_of_load {entries : List LogEntry} (h : log.load disk = .ok entries) :
    lastSequenceAt disk log.path = .ok (UInt64.ofNat entries.length) := by
  rw [← sequence_getLast? (numberedFrom_of_load h).1, lastSequenceAt]
  obtain ⟨hhas, found, hmessages, hentries⟩ | ⟨hhas, rfl⟩ := of_load h
  · rw [if_pos hhas, hmessages, ← List.getLast?_map, ← map_sequence_of_mapM hentries,
      List.getLast?_map]
    rfl
  · rw [hhas]
    rfl

section ReadBack

variable {path : Path} {octets : Bytes} {entries : List LogEntry}

theorem messages_of_content? (hcontent : disk.content? path = some octets)
    (hread : disk.canRead path = true) : messages disk path = readMessages octets := by
  rw [messages, Disk.read?, if_pos hread, hcontent]

theorem load_of_readMessages (hcontent : disk.content? log.path = some octets)
    (hread : disk.canRead log.path = true)
    (h : readMessages octets = .ok (entries.map LogEntry.toMessage)) :
    log.load disk = .ok entries := by
  rw [load, if_pos (Disk.has_of_content? hcontent), messages_of_content? hcontent hread, h]
  exact mapM_ofMessage entries

theorem lastSequenceAt_of_readMessages (hcontent : disk.content? path = some octets)
    (hread : disk.canRead path = true)
    (h : readMessages octets = .ok (entries.map LogEntry.toMessage)) :
    lastSequenceAt disk path = .ok (UInt64.ofNat entries.length) := by
  have hload : (OperationLog.mk path 0).load disk = .ok entries :=
    load_of_readMessages hcontent hread h
  have hlast := lastSequenceAt_of_load hload
  exact hlast

variable (hcontent : disk.content? path = some (logOctets entries))
  (hnumbered : NumberedFrom 1 entries) (hfits : ∀ e ∈ entries, e.Fits)

include hcontent hnumbered hfits

/-- **A log is read back** where the disk does not fail to read it. -/
theorem load_of_content? (hpath : log.path = path) :
    log.load disk = if disk.canRead path then .ok entries else .error .io := by
  subst hpath
  split
  · rename_i hread
    exact load_of_readMessages hcontent hread (readMessages_logOctets hnumbered hfits)
  · rename_i hread
    rw [load, if_pos (Disk.has_of_content? hcontent), messages, Disk.read?, if_neg hread]
    rfl

/-- The number of the last record is read back. -/
theorem lastSequenceAt_of_content? (hread : disk.canRead path = true) :
    lastSequenceAt disk path = .ok (UInt64.ofNat entries.length) :=
  lastSequenceAt_of_readMessages hcontent hread (readMessages_logOctets hnumbered hfits)

end ReadBack

/-- Where there is a file, its directory is there, so opening it as a log makes nothing. -/
theorem openAt_of_content? {directory : Path} {name : String} (hplain : Path.IsPlain name)
    {content : Bytes} (hcontent : disk.content? (directory.join name) = some content) :
    openAt disk (directory.join name) =
      ((lastSequenceAt disk (directory.join name)).map (⟨directory.join name, ·⟩), disk) := by
  obtain ⟨place, hplace, -⟩ := Option.bind_eq_some_iff.mp hcontent
  rw [openAt, Disk.makeDirectories_parent_join hplain hplace]

/-- A log that is open is the one at the path, and knows the number of its last record. -/
theorem of_openAt {path : Path} {disk' : Disk} (h : openAt disk path = (.ok log, disk')) :
    log.path = path ∧ lastSequenceAt disk' path = .ok log.lastSequence := by
  unfold openAt at h
  split at h
  · cases h
  · obtain ⟨hlast, rfl⟩ := Prod.mk.inj h
    obtain ⟨n, hn, rfl⟩ := map_eq_ok_iff.mp hlast
    exact ⟨rfl, hn⟩

/-- A record is added where its number is the next one and the disk takes the frame. -/
theorem append_eq_ok_iff {e : LogEntry} {log' : OperationLog} {disk' : Disk} :
    log.append disk e = .ok (log', disk') ↔
      e.sequence = log.lastSequence + 1 ∧ disk.append? log.path (frame e.encode) = some disk' ∧
        { log with lastSequence := e.sequence } = log' := by
  rw [append]
  split
  · rename_i hnext
    cases disk.append? log.path (frame e.encode) <;> simp [hnext, and_comm]
  · rename_i hnext
    simp [hnext]

/-- A log that took a record holds its frame at the end, and is no longer than a file can be. -/
theorem content?_of_append {e : LogEntry} {log' : OperationLog} {disk' : Disk}
    (h : log.append disk e = .ok (log', disk')) :
    disk'.content? log.path = some ((disk.content? log.path).getD [] ++ frame e.encode) ∧
      ((disk.content? log.path).getD [] ++ frame e.encode).length ≤ Disk.maxFileLength :=
  Disk.content?_of_append? (append_eq_ok_iff.mp h).2.1

end OperationLog

end SlotLedger
