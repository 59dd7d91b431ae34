import SlotLedger.Json.Basic

/-!
# Printing JSON

The compact form, without any white space, is what fingerprints and stored images are made from; the
indented form is for reports.  Both write members in the order of the document and escape nothing
that JSON allows to stand for itself.
-/

namespace SlotLedger.Json

/-- A hexadecimal digit of a control character's escape. -/
def escapeDigit (n : Nat) : Char := Nat.digitChar (n % 16)

/-- One character inside a JSON string. -/
def escapedChar (c : Char) : List Char :=
  if c = '"' then ['\\', '"']
  else if c = '\\' then ['\\', '\\']
  else if c = '\x08' then ['\\', 'b']
  else if c = '\x0c' then ['\\', 'f']
  else if c = '\n' then ['\\', 'n']
  else if c = '\r' then ['\\', 'r']
  else if c = '\t' then ['\\', 't']
  else if c.toNat < 0x20 then
    ['\\', 'u', '0', '0', escapeDigit (c.toNat / 16), escapeDigit c.toNat]
  else [c]

/-- The characters of a JSON string after its opening quote. -/
def stringTail (text : List Char) : List Char := text.flatMap escapedChar ++ ['"']

mutual

/-- The characters of a document, without white space. -/
def chars : Json → List Char
  | .null => ['n', 'u', 'l', 'l']
  | .bool true => ['t', 'r', 'u', 'e']
  | .bool false => ['f', 'a', 'l', 's', 'e']
  | .natural value => Nat.toDigits 10 value.toNat
  | .real numeral => numeral.toList
  | .string text => '"' :: stringTail text.toList
  | .array items => '[' :: itemsChars items
  | .object members => '\x7b' :: membersChars members
  | .unreadable => ['n', 'u', 'l', 'l']

/-- The characters of an array after its opening bracket. -/
def itemsChars : List Json → List Char
  | [] => [']']
  | [item] => chars item ++ [']']
  | item :: next :: rest => chars item ++ ',' :: itemsChars (next :: rest)

/-- The characters of an object after its opening brace. -/
def membersChars : List (String × Json) → List Char
  | [] => ['\x7d']
  | [(key, value)] => '"' :: (stringTail key.toList ++ ':' :: (chars value ++ ['\x7d']))
  | (key, value) :: next :: rest =>
    '"' :: (stringTail key.toList ++ ':' :: (chars value ++ ',' :: membersChars (next :: rest)))

end

/-- A document as text without white space. -/
def compact (j : Json) : String := String.ofList (chars j)

/-- A line break and the indentation of a nesting level. -/
def newline (level : Nat) : List Char := '\n' :: List.replicate (2 * level) ' '

mutual

/-- The characters of a document at a nesting level, one member or item a line. -/
def indentedChars (level : Nat) : Json → List Char
  | .array [] => ['[', ']']
  | .array items => '[' :: indentedItems (level + 1) items
  | .object [] => ['\x7b', '\x7d']
  | .object members => '\x7b' :: indentedMembers (level + 1) members
  | j => chars j

/-- The items of an array, each on a line of its own at a nesting level, and the closing bracket. -/
def indentedItems (level : Nat) : List Json → List Char
  | [] => newline (level - 1) ++ [']']
  | [item] => newline level ++ indentedChars level item ++ newline (level - 1) ++ [']']
  | item :: next :: rest =>
    newline level ++ indentedChars level item ++ ',' :: indentedItems level (next :: rest)

/-- The members of an object, each on a line of its own at a nesting level, and the closing
brace. -/
def indentedMembers (level : Nat) : List (String × Json) → List Char
  | [] => newline (level - 1) ++ ['\x7d']
  | [(key, value)] =>
    newline level ++ '"' :: stringTail key.toList ++ ':' :: ' ' :: indentedChars level value ++
      newline (level - 1) ++ ['\x7d']
  | (key, value) :: next :: rest =>
    newline level ++ '"' :: stringTail key.toList ++ ':' :: ' ' :: indentedChars level value ++
      ',' :: indentedMembers level (next :: rest)

end

/-- A document as text with two blanks of indentation a level. -/
def indented (j : Json) : String := String.ofList (indentedChars 0 j)

end SlotLedger.Json
