import SlotLedger.Disk
import SlotLedger.Snapshot.Basic

/-!
# Directories of snapshots

A directory holds a snapshot in the file `snapshot_` and its number in at least six digits and
`.json`.  Whatever else is in the directory is passed over.

## Main definitions

* `Snapshot.fileName`, `Snapshot.numberOf?`: the name of a snapshot's file and back.
* `Snapshot.save`, `Snapshot.load`, `Snapshot.list`, `Snapshot.latest`.
-/

namespace SlotLedger.Snapshot

/-! ## Names of files -/

/-- What the name of a snapshot's file starts with. -/
def nameStart : String := "snapshot_"

/-- What the name of a snapshot's file ends with. -/
def nameEnd : String := ".json"

/-- A number in at least six decimal digits. -/
def sixDigits (n : Nat) : List Char :=
  let digits := Nat.toDigits 10 n
  List.replicate (6 - digits.length) '0' ++ digits

/-- The name of the file of the snapshot with a number. -/
def fileName (sequence : UInt64) : String :=
  nameStart ++ String.ofList (sixDigits sequence.toNat) ++ nameEnd

/-- The number below 2^64 of decimal digits. -/
def ofDigits? (digits : List Char) : Option UInt64 :=
  if !digits.isEmpty && digits.all Char.isDigit then
    let n := digits.foldl (fun n c => 10 * n + (c.toNat - '0'.toNat)) 0
    if n < UInt64.size then some (UInt64.ofNat n) else none
  else none

/-- The number in the name of a snapshot's file: digits, with or without a plus sign. -/
def numberOf? (name : String) : Option UInt64 :=
  let chars := name.toList
  let start := nameStart.toList
  let rest := chars.drop start.length
  let stop := nameEnd.toList
  if start.isPrefixOf chars && stop.isSuffixOf rest then
    match rest.take (rest.length - stop.length) with
    | '+' :: digits => ofDigits? digits
    | digits => ofDigits? digits
  else none

/-! ## Files -/

/-- Write the snapshot of a ledger.  The directory is made if it is not there, also if the file is
then refused. -/
def save (disk : Disk) (directory : Path) (sequence : UInt64) (l : Ledger) :
    Except SnapshotError Path × Disk :=
  match disk.makeDirectories directory with
  | (false, disk) => (.error .io, disk)
  | (true, disk) =>
    let path := directory.join (fileName sequence)
    match disk.writeText? path (capture sequence l).toJson.compact with
    | none => (.error .io, disk)
    | some disk => (.ok path, disk)

/-- The snapshot of a text. -/
def ofText? (text : String) : Option Snapshot := (Json.parse? text).bind ofJson?

/-- The snapshot with a number, if there is one. -/
def load (disk : Disk) (directory : Path) (sequence : UInt64) :
    Except SnapshotError (Option Snapshot) :=
  let path := directory.join (fileName sequence)
  if disk.has path then
    match disk.readText? path with
    | none => .error .io
    | some text =>
      match ofText? text with
      | none => .error .json
      | some s => .ok (some s)
  else
    .ok none

/-- The numbers of the snapshots in a directory in ascending order. -/
def list (disk : Disk) (directory : Path) : Except SnapshotError (List UInt64) :=
  if disk.has directory then
    match disk.childNames? directory with
    | none => .error .io
    -- Names sort as texts; numbers of more than six digits would not come in order.
    | some names => .ok ((names.filterMap numberOf?).mergeSort (· ≤ ·))
  else
    .ok []

/-- The snapshot with the greatest number, if there is one. -/
def latest (disk : Disk) (directory : Path) : Except SnapshotError (Option Snapshot) := do
  match (← list disk directory).getLast? with
  | none => return none
  | some sequence => load disk directory sequence

end SlotLedger.Snapshot
