/-!
# Paths

A path is a text in which slashes separate names.  An empty name and a single dot name the directory
they stand in, and two dots name the one above it; what a path leads to is for a disk to say.

## Main definitions

* `Path`, `Path.names`: a path and the names in it.
* `Path.join`, `Path.parent`, `Path.name`: paths from paths.
* `Path.isValid`: the paths that a disk follows at all.
-/

namespace SlotLedger

/-- The way to a file or a directory. -/
structure Path where
  text : String
deriving DecidableEq

namespace Path

/-- The name of the directory above. -/
def above : String := ".."

/-- Whether a name is that of the directory it stands in. -/
def isHere (name : String) : Bool := name == "" || name == "."

/-- Whether a path starts at the root and not at the working directory. -/
def isAbsolute (p : Path) : Bool := p.text.toList.head? == some '/'

/-- The names between the slashes, also those that are empty. -/
def names (p : Path) : List String := p.text.splitToList (· == '/')

/-- The greatest number of octets in a path. -/
def maxOctets : Nat := 4095

/-- Whether a disk follows a path: it is neither empty nor too long and has no zero in it. -/
def isValid (p : Path) : Bool :=
  p.text != "" && p.text.utf8ByteSize ≤ maxOctets && !p.text.toList.contains '\x00'

/-- A path after another one.  A path from the root stands for itself. -/
def join (p : Path) (text : String) : Path :=
  if text.toList.head? == some '/' then ⟨text⟩
  else if p.text.toList.getLast?.all (· == '/') then ⟨p.text ++ text⟩
  else ⟨p.text ++ "/" ++ text⟩

/-- Names without those at the end that name the directory they stand in. -/
def trimHere (names : List String) : List String := (names.reverse.dropWhile isHere).reverse

/-- The path without its last name, and without the names before it that name nothing new.  A first
name stays as it is, even a dot. -/
def parent (p : Path) : Path :=
  match p.names with
  | [] => ⟨""⟩
  | first :: rest =>
    let rest := trimHere rest
    if rest.isEmpty then ⟨if p.isAbsolute then "/" else ""⟩
    else
      match trimHere rest.dropLast with
      | [] => ⟨if p.isAbsolute then "/" else first⟩
      | rest => ⟨"/".intercalate (first :: rest)⟩

/-- The last name of a path. -/
def name (p : Path) : String := p.names.getLastD ""

/-- The greatest number of octets in a name. -/
def maxNameOctets : Nat := 255

/-- Whether a directory can hold an entry of this name. -/
def isName (name : String) : Bool := name.utf8ByteSize ≤ maxNameOctets

end Path

end SlotLedger
