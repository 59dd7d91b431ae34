import SlotLedger.Disk
import SlotLedger.Wire.Record

/-!
# Operation logs

A log is a file of frames, each the length of a record's octets in four octets, lowest first, and
these octets.  Records are numbered from one without gaps, and a log only grows: a record is added
at the end or not at all.

Reading stops where fewer than four octets are left.  Everything else that is no frame is an error,
so a record that was cut or damaged never passes for one that was never written.

## Main definitions

* `frame`, `readFrames`: the octets of a record in a log and back.
* `OperationLog`: a log that is open, with the number of its last record.
* `OperationLog.openAt`, `OperationLog.append`, `OperationLog.load`.
-/

namespace SlotLedger

/-- Why a log was refused. -/
inductive LogError where
  /-- The disk refused. -/
  | io
  /-- A record has another number than its position asks for. -/
  | sequenceViolation (expected got : UInt64)
  | invalidFrame (length offset : Nat)
  | truncated (offset : Nat)
  /-- The octets of a frame are no message. -/
  | malformed (offset : Nat)
  /-- A message is no record. -/
  | record (error : DecodeError)
deriving DecidableEq

/-- The error's code; the code of an error within it follows after a dot. -/
def LogError.code : LogError → String
  | .io => "io"
  | .sequenceViolation .. => "sequence_violation"
  | .invalidFrame .. => "invalid_frame"
  | .truncated _ => "truncated"
  | .malformed _ => "protobuf"
  | .record error => "record." ++ error.code

/-- The error in words. -/
def LogError.message : LogError → String
  | .io => "operation store I/O"
  | .sequenceViolation expected got =>
    s!"sequence violation in operation store: expected {expected.toNat}, got {got.toNat}"
  | .invalidFrame length offset => s!"invalid frame length {length} at offset {offset}"
  | .truncated offset => s!"truncated frame at offset {offset}"
  | .malformed offset => s!"protobuf decode error at offset {offset}"
  | .record error => error.message

/-! ## Frames -/

/-- The greatest length of a frame that is read back. -/
def maxFrameLength : Nat := 16 * 1024 * 1024

/-- A record's octets behind their length. -/
def frame (octets : Bytes) : Bytes := Bytes.littleEndian 4 octets.length ++ octets

/-- The messages of the frames in the given octets, of which the first is at `offset` and has the
number `expected`. -/
def readFrames (offset : Nat) (expected : UInt64) : Bytes → Except LogError (List RecordMessage)
  | a :: b :: c :: d :: rest =>
    let length := Bytes.ofLittleEndian [a, b, c, d]
    if length = 0 ∨ maxFrameLength < length then
      .error (.invalidFrame length offset)
    else
      let octets := rest.take length
      if octets.length < length then
        .error (.truncated offset)
      else
        -- The form of a message is checked before its number, its content only by `load`.
        match RecordMessage.decode? octets with
        | none => .error (.malformed offset)
        | some message =>
          if message.sequence = expected then do
            let later ← readFrames (offset + 4 + length) (expected + 1) (rest.drop length)
            return message :: later
          else
            .error (.sequenceViolation expected message.sequence)
  -- What is left of a length that was never finished is passed over.
  | _ => .ok []
termination_by octets => octets.length
decreasing_by simp only [List.length_drop, List.length_cons]; omega

/-- The messages of a log's octets. -/
def readMessages (octets : Bytes) : Except LogError (List RecordMessage) := readFrames 0 1 octets

/-! ## Logs -/

/-- An open log. -/
structure OperationLog where
  path : Path
  /-- The number of the last record, zero in an empty log. -/
  lastSequence : UInt64
deriving DecidableEq

namespace OperationLog

/-- The messages in the file of a log. -/
def messages (disk : Disk) (path : Path) : Except LogError (List RecordMessage) :=
  match disk.read? path with
  | none => .error .io
  | some octets => readMessages octets

/-- The number of the last record of a log, zero where there is no file. -/
def lastSequenceAt (disk : Disk) (path : Path) : Except LogError UInt64 :=
  if disk.has path then do
    let messages ← messages disk path
    return (messages.getLast?.map RecordMessage.sequence).getD 0
  else
    .ok 0

/-- Open the log at a path.  Its directory is made if it is not there; its file is not. -/
def openAt (disk : Disk) (path : Path) : Except LogError OperationLog × Disk :=
  match disk.makeDirectories path.parent with
  | (false, disk) => (.error .io, disk)
  | (true, disk) => ((lastSequenceAt disk path).map (⟨path, ·⟩), disk)

/-- Add a record at the end of a log.  Its number has to be the next one. -/
def append (log : OperationLog) (disk : Disk) (e : LogEntry) :
    Except LogError (OperationLog × Disk) :=
  let expected := log.lastSequence + 1
  if e.sequence = expected then
    match disk.append? log.path (frame e.encode) with
    | none => .error .io
    | some disk => .ok ({ log with lastSequence := e.sequence }, disk)
  else
    .error (.sequenceViolation expected e.sequence)

/-- The records of a log. -/
def load (log : OperationLog) (disk : Disk) : Except LogError (List LogEntry) :=
  if disk.has log.path then do
    let messages ← messages disk log.path
    messages.mapM fun m => (LogEntry.ofMessage m).mapError .record
  else
    .ok []

end OperationLog

end SlotLedger
