import SlotLedger.Disk.Directory
import SlotLedger.Disk.Path

/-!
# Disks

Files and directories as a value.  What is kept on a disk is read and written by functions from a
disk to a disk, and a function that fails says so and returns no disk, so that a failure leaves the
disk as it was.  Only making directories can fail halfway; it returns the disk with those made.

A path is followed name by name through directories that are there.  So a name that leads nowhere
is an error even if two dots take it back, and what stands before a slash has to be a directory.

A disk can also fail for reasons of its own, such as missing rights or want of room.  Which files it
fails to read or write at present is part of the disk, and so can change like everything else.

## Main definitions

* `Disk`: a tree with a working directory.
* `Disk.place?`: the place that a path leads to.
* `Disk.content?`: what a file holds, whether or not it can be read.
* `Disk.read?`, `Disk.write?`, `Disk.append?`: the contents of a file.
* `Disk.makeDirectories`, `Disk.childNames?`: directories.
* `Disk.move?`, `Disk.removeFile?`, `Disk.removeDirectory?`: what changes places or goes.
* `Disk.readText?`, `Disk.writeText?`: contents that are text.

## Main results

* `Disk.place?_of_write?`: a write leads no path elsewhere.
* `Disk.content?_of_write?`, `Disk.content?_of_append?`: a file holds what is written, and no other
  file changes.
-/

namespace SlotLedger

/-- The files and directories, and where paths start. -/
structure Disk where
  root : Directory
  /-- The place of the working directory. -/
  working : Place
  /-- The places whose files the disk fails to read. -/
  unreadable : List Place
  /-- The places whose files the disk fails to write. -/
  unwritable : List Place

namespace Disk

/-- The disk without files, which fails nowhere. -/
def empty : Disk := ⟨.empty, [], [], []⟩

/-! ## Paths -/

/-- The directory that names lead to from the directory at a place. -/
def walk (root : Directory) (here : Place) : List String → Option Place
  | [] => some here
  | name :: rest =>
    if Path.isHere name then walk root here rest
    else if name = Path.above then walk root here.dropLast rest
    else if root.hasDirectoryAt (here ++ [name]) then walk root (here ++ [name]) rest
    else none

/-- The place where a path starts. -/
def start (d : Disk) (path : Path) : Place := if path.isAbsolute then [] else d.working

/-- The place that a path leads to.  Its directory is there; whether there is something at the place
itself is not asked, unless the path ends in the name of a directory. -/
def place? (d : Disk) (path : Path) : Option Place :=
  if !path.isValid then none
  else if Path.isHere path.name || path.name == Path.above then
    walk d.root (d.start path) path.names
  else
    (walk d.root (d.start path) path.names.dropLast).map (· ++ [path.name])

/-- The file or directory that a path leads to. -/
def node? (d : Disk) (path : Path) : Option Node := (d.place? path).bind d.root.at?

/-- Whether a path leads to a file or directory. -/
def has (d : Disk) (path : Path) : Bool := (d.node? path).isSome

/-- The disk without the file that a path leads to. -/
def removeFile? (d : Disk) (path : Path) : Option Disk := do
  let place ← d.place? path
  if (d.root.fileAt? place).isSome then some { d with root := d.root.eraseAt place } else none

/-- The disk without the directory that a path leads to and all that is below it.  The root cannot
be removed. -/
def removeDirectory? (d : Disk) (path : Path) : Option Disk := do
  let place ← d.place? path
  if place ≠ [] ∧ d.root.hasDirectoryAt place then
    some { d with root := d.root.eraseAt place }
  else none

/-- The disk after a file or directory was moved.  Nothing is moved below itself, and at the target
only a file gives way to a file and only an empty directory to a directory. -/
def move? (d : Disk) (source target : Path) : Option Disk := do
  let old ← d.place? source
  let node ← d.root.at? old
  let new ← d.place? target
  let others := d.root.eraseAt old
  if old ≠ [] ∧ new ≠ [] ∧ others.hasDirectoryAt new.dropLast ∧ Path.isName (new.getLastD "") ∧
      (old = new ∨ (d.root.at? new).all node.canReplace) then
    some { d with root := others.putAt node new }
  else none

/-! ## Files -/

/-- What a file holds, whether or not it can be read. -/
def content? (d : Disk) (path : Path) : Option Bytes := (d.place? path).bind d.root.fileAt?

/-- Whether the disk does not fail to read what a path leads to. -/
def canRead (d : Disk) (path : Path) : Bool := (d.place? path).all (· ∉ d.unreadable)

/-- The content of a file. -/
def read? (d : Disk) (path : Path) : Option Bytes :=
  if d.canRead path then d.content? path else none

/-- Whether a file can be written at a place: its directory is there and can hold its name, and no
directory is in its place. -/
def canWriteAt (root : Directory) (place : Place) : Bool :=
  root.hasDirectoryAt place.dropLast && !root.hasDirectoryAt place &&
    Path.isName (place.getLastD "")

/-- The disk after a file got a new content. -/
def write? (d : Disk) (path : Path) (content : Bytes) : Option Disk := do
  let place ← d.place? path
  if canWriteAt d.root place ∧ place ∉ d.unwritable then
    some { d with root := d.root.putAt (.file content) place }
  else none

/-- The greatest length of a file: a position in it is a signed number of 64 bits. -/
def maxFileLength : Nat := 0x7fffffffffffffff

/-- The disk after octets were added to the end of a file, which need not be there before.  What is
written as a whole is never too long, since it was in memory, but what grows can become so. -/
def append? (d : Disk) (path : Path) (more : Bytes) : Option Disk :=
  let content := (d.content? path).getD [] ++ more
  if content.length ≤ maxFileLength then d.write? path content else none

/-- The content of a file as text. -/
def readText? (d : Disk) (path : Path) : Option String := (d.read? path).bind Bytes.utf8?

/-- The disk after a file got a text as its content. -/
def writeText? (d : Disk) (path : Path) (text : String) : Option Disk :=
  d.write? path (Bytes.utf8 text)

/-! ## Directories -/

/-- Follow names from the directory at a place and make the directories that are not there.  The
result is the tree with those made, and whether all names could be followed. -/
def makeBelow (root : Directory) (here : Place) : List String → Bool × Directory
  | [] => (true, root)
  | name :: rest =>
    if Path.isHere name then makeBelow root here rest
    else if name = Path.above then makeBelow root here.dropLast rest
    else
      let next := here ++ [name]
      match root.at? next with
      | some (.directory _) => makeBelow root next rest
      | some (.file _) => (false, root)
      | none =>
        -- A directory that is named with a dot behind it is not made.
        if Path.isName name && !(rest.all Path.isHere && rest.contains ".") then
          makeBelow (root.putAt (.directory .empty) next) next rest
        else (false, root)

/-- Make the directory at a path and those on the way to it, as far as possible.  The empty path
names nothing that would have to be made. -/
def makeDirectories (d : Disk) (path : Path) : Bool × Disk :=
  if path.text = "" then (true, d)
  else if path.isValid then
    let (made, root) := makeBelow d.root (d.start path) path.names
    (made, { d with root })
  else (false, d)

/-- The names in a directory. -/
def childNames? (d : Disk) (path : Path) : Option (List String) :=
  match d.node? path with
  | some (.directory below) => some below.names
  | _ => none

/-! ## Laws -/

/-- A way leads to the same place wherever the same directories are there. -/
theorem walk_congr {r s : Directory} (same : ∀ p, r.hasDirectoryAt p = s.hasDirectoryAt p)
    (here : Place) (names : List String) : walk r here names = walk s here names := by
  induction names generalizing here with
  | nil => rfl
  | cons name rest ih => simp only [walk, ih, same]

/-- A path leads to the same place wherever the same directories are there. -/
theorem place?_congr {c d : Disk} (working : c.working = d.working)
    (same : ∀ p, c.root.hasDirectoryAt p = d.root.hasDirectoryAt p) (path : Path) :
    c.place? path = d.place? path := by
  simp only [place?, start, working, walk_congr same]

/-- A write succeeds where a path leads to a place at which a file can be written. -/
theorem write?_eq_some_iff {d e : Disk} {path : Path} {content : Bytes} :
    d.write? path content = some e ↔
      ∃ place, d.place? path = some place ∧ canWriteAt d.root place = true ∧
        place ∉ d.unwritable ∧ { d with root := d.root.putAt (.file content) place } = e := by
  simp [write?, Option.bind_eq_some_iff, and_assoc]

/-- What makes a place writable. -/
theorem canWriteAt_iff {root : Directory} {place : Place} :
    canWriteAt root place = true ↔
      root.hasDirectoryAt place.dropLast = true ∧ root.hasDirectoryAt place = false ∧
        Path.isName (place.getLastD "") = true := by
  simp [canWriteAt, and_assoc]

/-- No file is written at the root. -/
theorem ne_nil_of_canWriteAt {root : Directory} {place : Place}
    (h : canWriteAt root place = true) : place ≠ [] := by
  rintro rfl
  exact absurd (canWriteAt_iff.mp h).2.1 (by simp [Directory.hasDirectoryAt, Directory.at?,
    Node.isDirectory])

/-- A write leads no path elsewhere. -/
theorem place?_of_write? {d e : Disk} {path : Path} {content : Bytes}
    (h : d.write? path content = some e) (path' : Path) : e.place? path' = d.place? path' := by
  obtain ⟨place, -, can, -, rfl⟩ := write?_eq_some_iff.mp h
  obtain ⟨above, free, -⟩ := canWriteAt_iff.mp can
  apply place?_congr
  · rfl
  · exact Directory.hasDirectoryAt_putAt content above free

/-- Every path to the place of a write leads to what was written, and every other file holds what it
held. -/
theorem content?_of_write? {d e : Disk} {path : Path} {content : Bytes}
    (h : d.write? path content = some e) (path' : Path) :
    e.content? path' =
      if d.place? path' = d.place? path then some content else d.content? path' := by
  rw [content?, place?_of_write? h, content?]
  obtain ⟨place, at_place, can, -, rfl⟩ := write?_eq_some_iff.mp h
  obtain ⟨above, free, -⟩ := canWriteAt_iff.mp can
  rw [at_place]
  cases d.place? path' with
  | none => simp
  | some other =>
    simp [Directory.fileAt?_putAt content (ne_nil_of_canWriteAt can) above free]

/-- A file holds what is written. -/
theorem content?_of_write?_self {d e : Disk} {path : Path} {content : Bytes}
    (h : d.write? path content = some e) : e.content? path = some content := by
  simp [content?_of_write? h]

/-- A write changes nothing about which files can be read. -/
theorem canRead_of_write? {d e : Disk} {path : Path} {content : Bytes}
    (h : d.write? path content = some e) (path' : Path) : e.canRead path' = d.canRead path' := by
  rw [canRead, canRead, place?_of_write? h]
  obtain ⟨place, -, -, -, rfl⟩ := write?_eq_some_iff.mp h
  rfl

/-- A file that grew holds what it held and then the new octets, and is not too long. -/
theorem content?_of_append? {d e : Disk} {path : Path} {more : Bytes}
    (h : d.append? path more = some e) :
    e.content? path = some ((d.content? path).getD [] ++ more) ∧
      ((d.content? path).getD [] ++ more).length ≤ maxFileLength := by
  rw [append?] at h
  split at h
  · exact ⟨content?_of_write?_self h, ‹_›⟩
  · cases h

end Disk

end SlotLedger
