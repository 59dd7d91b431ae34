import SlotLedger.Bytes

/-!
# Directories

A directory with everything below it, as a tree.  A place in it is the list of names on the way down
to a file or a directory.

## Main definitions

* `Directory`, `Node`: the tree, and what can be at a place of it.
* `Directory.find?`, `Directory.put`, `Directory.erase`: one entry.
* `Directory.at?`, `Directory.putAt`, `Directory.eraseAt`: what is at a place.

## Main results

* `Directory.find?_put`: an entry that is put is found, and every other name as before.
* `Directory.fileAt?_putAt`, `Directory.hasDirectoryAt_putAt`: a file that is put at a place is
  found there, and nothing else changes.
-/

namespace SlotLedger

/-- The entries of a directory. -/
inductive Directory where
  | empty
  | file (name : String) (content : Bytes) (others : Directory)
  | directory (name : String) (below : Directory) (others : Directory)
deriving DecidableEq

/-- A file or a directory. -/
inductive Node where
  | file (content : Bytes)
  | directory (below : Directory)
deriving DecidableEq

/-- The names on the way from a directory down to a file or a directory below it. -/
abbrev Place := List String

/-- Whether a node is a directory. -/
def Node.isDirectory : Node → Bool
  | .directory _ => true
  | .file _ => false

/-- Whether a node can take the place of another one. -/
def Node.canReplace : Node → Node → Bool
  | .file _, .file _ => true
  | .directory _, .directory below => below = .empty
  | _, _ => false

namespace Directory

/-! ## Entries -/

/-- The directory of an entry and others. -/
def entry (name : String) (node : Node) (others : Directory) : Directory :=
  match node with
  | .file content => .file name content others
  | .directory below => .directory name below others

/-- The entry of a name. -/
def find? (name : String) : Directory → Option Node
  | empty => none
  | file name' content others => if name' = name then some (.file content) else others.find? name
  | directory name' below others =>
    if name' = name then some (.directory below) else others.find? name

/-- The directory with an entry put under a name, whatever was there. -/
def put (name : String) (node : Node) : Directory → Directory
  | empty => entry name node empty
  | file name' content others =>
    if name' = name then entry name node others else file name' content (others.put name node)
  | directory name' below others =>
    if name' = name then entry name node others else directory name' below (others.put name node)

/-- The directory without the entry of a name. -/
def erase (name : String) : Directory → Directory
  | empty => empty
  | file name' content others =>
    if name' = name then others.erase name else file name' content (others.erase name)
  | directory name' below others =>
    if name' = name then others.erase name else directory name' below (others.erase name)

/-- The names of the entries. -/
def names : Directory → List String
  | empty => []
  | file name _ others => name :: others.names
  | directory name _ others => name :: others.names

/-! ## Places -/

/-- The file or directory at a place. -/
def at? (d : Directory) : Place → Option Node
  | [] => some (.directory d)
  | name :: rest =>
    match d.find? name with
    | some (.directory below) => below.at? rest
    | some (.file content) => if rest = [] then some (.file content) else none
    | none => none

/-- The tree with a node put at a place, whatever was there.  The directory above has to be
there. -/
def putAt (d : Directory) (node : Node) : Place → Directory
  | [] => d
  | [name] => d.put name node
  | name :: rest =>
    match d.find? name with
    | some (.directory below) => d.put name (.directory (below.putAt node rest))
    | _ => d

/-- The tree without what is at a place and below it. -/
def eraseAt (d : Directory) : Place → Directory
  | [] => d
  | [name] => d.erase name
  | name :: rest =>
    match d.find? name with
    | some (.directory below) => d.put name (.directory (below.eraseAt rest))
    | _ => d

/-- Whether there is a directory at a place. -/
def hasDirectoryAt (d : Directory) (place : Place) : Bool := (d.at? place).any Node.isDirectory

/-- The content of the file at a place. -/
def fileAt? (d : Directory) (place : Place) : Option Bytes :=
  match d.at? place with
  | some (.file content) => some content
  | _ => none

/-! ## Laws -/

@[simp] theorem find?_entry (name name' : String) (node : Node) (others : Directory) :
    (entry name node others).find? name' =
      if name = name' then some node else others.find? name' := by
  cases node <;> simp [entry, find?]

/-- An entry that is put is found, and every other name as before. -/
theorem find?_put (d : Directory) (name name' : String) (node : Node) :
    (d.put name node).find? name' = if name = name' then some node else d.find? name' := by
  induction d with
  | empty => simp [put, find?]
  | file n content others ih | directory n below others _ ih =>
    simp only [put]
    by_cases same : n = name
    · simp only [same, if_true, find?_entry, find?]
      split <;> rfl
    · simp only [same, if_false, find?, ih]
      split <;> split <;> simp_all

/-- A way down starts with an entry. -/
theorem at?_cons (d : Directory) (name : String) (rest : Place) :
    d.at? (name :: rest) =
      match d.find? name with
      | some (.directory below) => below.at? rest
      | some (.file content) => if rest = [] then some (.file content) else none
      | none => none := by
  rw [at?]

/-- What is below an entry that is a directory is what is below that directory. -/
theorem at?_of_find? {d below : Directory} {name : String}
    (found : d.find? name = some (.directory below)) (rest : Place) :
    d.at? (name :: rest) = below.at? rest := by
  rw [at?_cons, found]

/-- Above a place that is two names or more down there is a directory. -/
theorem find?_of_hasDirectoryAt {d : Directory} {name next : String} {rest : Place}
    (above : d.hasDirectoryAt (name :: next :: rest).dropLast = true) :
    ∃ below, d.find? name = some (.directory below) ∧
      below.hasDirectoryAt (next :: rest).dropLast = true := by
  simp only [List.dropLast_cons_cons, hasDirectoryAt, at?_cons] at above
  cases found : d.find? name with
  | none => simp [found] at above
  | some node =>
    cases node with
    | file content => simp [found, Node.isDirectory, apply_ite] at above
    | directory below => exact ⟨below, rfl, by simpa [found, hasDirectoryAt] using above⟩

/-- Putting a file where no directory is neither makes nor takes away a directory. -/
theorem hasDirectoryAt_putAt {d : Directory} {place : Place} (content : Bytes)
    (above : d.hasDirectoryAt place.dropLast = true) (free : d.hasDirectoryAt place = false)
    (other : Place) :
    (d.putAt (.file content) place).hasDirectoryAt other = d.hasDirectoryAt other := by
  induction place generalizing d other with
  | nil => rfl
  | cons name rest ih =>
    cases other with
    | nil => simp [hasDirectoryAt, at?, Node.isDirectory]
    | cons name' rest' =>
      cases rest with
      | nil =>
        simp only [putAt, hasDirectoryAt, at?_cons, find?_put]
        by_cases same : name = name'
        · subst same
          simp only [hasDirectoryAt, at?_cons] at free
          cases found : d.find? name with
          | none => simp [Node.isDirectory, apply_ite]
          | some node => cases node <;> simp_all [Node.isDirectory, apply_ite, at?]
        · simp [same]
      | cons next rest =>
        obtain ⟨below, found, above⟩ := find?_of_hasDirectoryAt above
        rw [hasDirectoryAt, at?_of_find? found] at free
        simp only [putAt, found, hasDirectoryAt, at?_cons, find?_put]
        by_cases same : name = name'
        · subst same
          simpa [found, hasDirectoryAt] using ih above free rest'
        · simp [same]

/-- A file that is put where no directory is is found there, and every other file as before. -/
theorem fileAt?_putAt {d : Directory} {place : Place} (content : Bytes) (filled : place ≠ [])
    (above : d.hasDirectoryAt place.dropLast = true) (free : d.hasDirectoryAt place = false)
    (other : Place) :
    (d.putAt (.file content) place).fileAt? other =
      if other = place then some content else d.fileAt? other := by
  induction place generalizing d other with
  | nil => exact absurd rfl filled
  | cons name rest ih =>
    cases other with
    | nil => simp [fileAt?, at?]
    | cons name' rest' =>
      cases rest with
      | nil =>
        simp only [putAt, fileAt?, at?_cons, find?_put]
        by_cases same : name = name'
        · subst same
          simp only [hasDirectoryAt, at?_cons] at free
          by_cases last : rest' = []
          · simp [last]
          · cases found : d.find? name with
            | none => simp [last]
            | some node => cases node <;> simp_all [Node.isDirectory, at?]
        · simp [same, Ne.symm same]
      | cons next rest =>
        obtain ⟨below, found, above⟩ := find?_of_hasDirectoryAt above
        rw [hasDirectoryAt, at?_of_find? found] at free
        simp only [putAt, found, fileAt?, at?_cons, find?_put]
        by_cases same : name = name'
        · subst same
          simpa [found, fileAt?] using ih (by simp) above free rest'
        · simp [same, Ne.symm same]

end Directory

end SlotLedger
