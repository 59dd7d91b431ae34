import SlotLedger.CommandLine

/-!
# The program

Reads the files that a run needs, runs the command line and writes back what changed.
-/

open SlotLedger

namespace SlotLedger.Main

/-- The text of a place below the root. -/
def placeText (place : Place) : String := "/" ++ "/".intercalate place

/-- Copy a file into the tree, or a directory without what is in it. -/
def fetch (root : Directory) (place : Place) : IO Directory := do
  let here := (← IO.currentDir) / placeText place
  if ← here.isDir then
    return (Disk.makeBelow root [] place).2
  else
    try
      let octets ← IO.FS.readBinFile here
      return root.putAt (.file octets.data.toList) place
    catch _ => return root

/-- Copy what is on the way of a path into a disk, and tell the place to which it leads. -/
def follow (disk : Disk) (path : Path) : IO (Disk × Place) := do
  let mut root := disk.root
  let mut here := disk.start path
  for name in path.names do
    if name = Path.above then
      here := here.dropLast
    else unless Path.isHere name do
      here := here ++ [name]
      root ← fetch root here
  return ({ disk with root }, here)

/-- Copy what is below a directory into the tree. -/
partial def fetchBelow (root : Directory) (place : Place) : IO Directory := do
  let here := (← IO.currentDir) / placeText place
  let mut root ← fetch root place
  if ← here.isDir then
    for entry in ← here.readDir do
      root ← fetchBelow root (place ++ [entry.fileName])
  return root

/-- Write what changed in a directory and below it. -/
def store (before : Directory) (place : Place) : Directory → IO Unit
  | .empty => return
  | .file name content others => do
    let here := place ++ [name]
    unless before.fileAt? here = some content do
      IO.FS.writeBinFile (placeText here) ⟨content.toArray⟩
    store before place others
  | .directory name below others => do
    let here := place ++ [name]
    unless before.hasDirectoryAt here do
      IO.FS.createDirAll (placeText here)
    store before here below
    store before place others

/-- The disk with nothing but the working directory. -/
def workingDisk : IO Disk := do
  let (disk, working) ← follow .empty ⟨(← IO.currentDir).toString⟩
  return { disk with working }

/-- The disk with what a run of the given arguments may read. -/
def fetchAll (disk : Disk) (arguments : Arguments) : IO Disk := do
  let mut read := disk
  if let some path := arguments.config then
    read := (← follow read ⟨path⟩).1
  read := (← follow read ⟨arguments.scenario⟩).1
  match arguments.settings read with
  | .error _ => return read
  | .ok config =>
    let (known, place) ← follow read (Path.join ⟨config.dataDirectory⟩ config.sessionId)
    return { known with root := ← fetchBelow known.root place }

end SlotLedger.Main

open SlotLedger.Main in
/-- Run the command line; the status is zero for a run without error. -/
def main (texts : List String) : IO UInt32 := do
  let environment ← IO.getEnv "UPGRADE_CONFIG"
  let disk ← workingDisk
  let before ←
    match Arguments.ofList? environment texts with
    | none => pure disk
    | some arguments => fetchAll disk arguments
  let (result, after) := runCommandLine environment texts before
  store before.root [] after.root
  if let some report := result.report then
    IO.println report.toJson.indented
  if let some error := result.error then
    IO.eprintln ("Error: " ++ error.message)
  return result.status
