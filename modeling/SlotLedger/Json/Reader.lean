import SlotLedger.Json.Numeral
import SlotLedger.Json.Scalar

/-!
# Reading JSON

The grammar of JSON: one document, white space around it, and nothing else.

There are two ways of reading.  The lenient way is for records that pass over some of their members:
parts that have the form of a document and no value become `Json.unreadable`, so that nobody need
care what is in a member that is passed over.  The strict way is for records that use every part: a
part without a value is an error.  But an array may end in an item that cannot be read, if as a
scalar it is over right before the closing bracket; then the array ends in `Json.unreadable`.  Who
reads items one by one and knows how many there are does not mind what comes after the last one.

## Main definitions

* `readString`: a string after its opening quote.
* `readNumeral`: a number.
* `readValue`: a document, with what follows it.
* `parse?`, `parseStrict?`: the document a whole text stands for.
-/

namespace SlotLedger.Json

/-- How a text is read. -/
inductive Reading where
  /-- Parts without a value are unreadable. -/
  | lenient
  /-- Parts without a value are errors, but for the end of an array. -/
  | strict
deriving DecidableEq

/-- Whether a character is white space between the parts of a document. -/
def isSpace (c : Char) : Bool := c = ' ' || c = '\t' || c = '\n' || c = '\r'

/-- The text after leading white space. -/
def skipSpace (text : List Char) : List Char := text.dropWhile isSpace

/-! ## Strings -/

/-- A part of a string: a character, or a code unit written as an escape. -/
inductive StringPart where
  | char (c : Char)
  | unit (n : Nat)

/-- The parts of a string, of which `read` are those read so far in reverse order, and what follows
the closing quote. -/
def stringParts (read : List StringPart) : List Char → Option (List StringPart × List Char)
  | [] => none
  | '"' :: rest => some (read.reverse, rest)
  | '\\' :: 'u' :: a :: b :: c :: d :: rest => do
    let unit ← codeUnit? a b c d
    stringParts (.unit unit :: read) rest
  | '\\' :: e :: rest => do
    let c ← simpleEscape? e
    stringParts (.char c :: read) rest
  | c :: rest =>
    if c = '\\' ∨ c.toNat < 0x20 then none else stringParts (.char c :: read) rest

/-- The characters of the parts of a string, behind those in `read`, which are in reverse order: a
leading surrogate and the trailing one after it are one character, and a surrogate that stands alone
is none. -/
def joinParts (read : List Char) : List StringPart → Option (List Char)
  | [] => some read.reverse
  | .char c :: rest => joinParts (c :: read) rest
  | .unit first :: .unit second :: rest =>
    if isLeading first then
      if isTrailing second then joinParts (surrogatePair first second :: read) rest else none
    else if isTrailing first then
      none
    else
      joinParts (Char.ofNat first :: read) (.unit second :: rest)
  | .unit n :: rest =>
    if isLeading n || isTrailing n then none else joinParts (Char.ofNat n :: read) rest

/-- A string after its opening quote, and what follows its closing one.  The string is `none` if a
surrogate stands alone in it. -/
def readString (text : List Char) : Option (Option String × List Char) := do
  let (parts, after) ← stringParts [] text
  some ((joinParts [] parts).map String.ofList, after)

/-! ## Numbers -/

/-- The value of a decimal digit. -/
def decimalValue (c : Char) : Nat := c.toNat - 0x30

/-- The leading decimal digits of a text, and what follows them. -/
def readDigits (text : List Char) : List Nat × List Char :=
  ((text.takeWhile Char.isDigit).map decimalValue, text.dropWhile Char.isDigit)

/-- The digits after a decimal point, if there is one: at least one digit has to follow it. -/
def readFraction : List Char → Option (List Nat × List Char)
  | '.' :: rest =>
    match readDigits rest with
    | ([], _) => none
    | found => some found
  | text => some ([], text)

/-- The digits of an exponent after its sign: at least one. -/
def readPower (negative : Bool) (text : List Char) : Option (Int × List Char) :=
  match readDigits text with
  | ([], _) => none
  | (digits, rest) =>
    let value : Nat := digits.foldl (fun value d => 10 * value + d) 0
    some (if negative then -(value : Int) else value, rest)

/-- An exponent, if there is one, and what follows it. -/
def readExponent : List Char → Option (Option Int × List Char)
  | c :: rest =>
    if c = 'e' ∨ c = 'E' then
      let read : Option (Int × List Char) :=
        match rest with
        | '+' :: digits => readPower false digits
        | '-' :: digits => readPower true digits
        | digits => readPower false digits
      read.map fun p => (some p.1, p.2)
    else
      some (none, c :: rest)
  | [] => some (none, [])

/-- The digits of an integer part: a single zero, or digits that do not start with one. -/
def readInteger : List Char → Option (List Nat × List Char)
  | '0' :: rest => some ([0], rest)
  | text =>
    match readDigits text with
    | ([], _) => none
    | found => some found

/-- A number and what follows it. -/
def readNumeral (text : List Char) : Option (Json × List Char) := do
  let (negative, digits) :=
    match text with
    | '-' :: rest => (true, rest)
    | rest => (false, rest)
  let (integer, afterInteger) ← readInteger digits
  let (fraction, afterFraction) ← readFraction afterInteger
  let (exponent, after) ← readExponent afterFraction
  let numeral : Numeral :=
    ⟨negative, integer, fraction, exponent.getD 0, fraction.isEmpty && exponent.isNone⟩
  some (numeral.document text after, after)

/-! ## Documents -/

/-- A document as it is kept: strict reading keeps none without a value. -/
def Reading.keep? (reading : Reading) (j : Json) : Option Json :=
  match reading, j with
  | .strict, .unreadable => none
  | _, j => some j

/-- A container's document, if nesting has left room for it. -/
def contained (room : Nat) (j : Json) : Json := if room = 0 then .unreadable else j

/-- An object's document; a key without a value leaves the object without one. -/
def ofMembers (members : List (Option String × Json)) : Json :=
  match members.mapM fun m => m.1.map fun key => (key, m.2) with
  | some members => .object members
  | none => .unreadable

/-- What follows the closing bracket of an array whose last item cannot be read, if the item is over
right before the bracket. -/
def afterLast? (text : List Char) : Option (List Char) :=
  let rest := afterScalar (Bytes.utf8 (String.ofList (skipSpace text)))
  match skipSpace <$> String.toList <$> Bytes.utf8? rest with
  | some (']' :: after) => some after
  | _ => none

mutual

/-- A document and what follows it.  `room` is the number of containers that may still nest;
`fuel` bounds the number of steps and runs out for no text shorter than it. -/
def readValue (reading : Reading) (fuel room : Nat) (text : List Char) :
    Option (Json × List Char) :=
  match fuel with
  | 0 => none
  | fuel + 1 =>
    match skipSpace text with
    | 'n' :: 'u' :: 'l' :: 'l' :: rest => some (.null, rest)
    | 't' :: 'r' :: 'u' :: 'e' :: rest => some (.bool true, rest)
    | 'f' :: 'a' :: 'l' :: 's' :: 'e' :: rest => some (.bool false, rest)
    | '"' :: rest => do
      let (text?, after) ← readString rest
      some (← reading.keep? ((text?.map Json.string).getD .unreadable), after)
    | '[' :: rest =>
      match skipSpace rest with
      | ']' :: after => do some (← reading.keep? (contained room (.array [])), after)
      | _ => do
        let (items, after) ← readItems reading fuel (room - 1) rest
        some (← reading.keep? (contained room (.array items)), after)
    | '\x7b' :: rest =>
      match skipSpace rest with
      | '\x7d' :: after => do some (← reading.keep? (contained room (.object [])), after)
      | _ => do
        let (members, after) ← readMembers reading fuel (room - 1) rest
        some (← reading.keep? (contained room (ofMembers members)), after)
    | other => do
      let (number, after) ← readNumeral other
      some (← reading.keep? number, after)

/-- The items of an array up to its closing bracket, and what follows that. -/
def readItems (reading : Reading) (fuel room : Nat) (text : List Char) :
    Option (List Json × List Char) :=
  match fuel with
  | 0 => none
  | fuel + 1 =>
    match readValue reading fuel room text with
    | none =>
      if reading = .strict then (afterLast? text).map fun after => ([.unreadable], after) else none
    | some (item, afterItem) =>
      match skipSpace afterItem with
      | ']' :: after => some ([item], after)
      | ',' :: rest => do
        let (items, after) ← readItems reading fuel room rest
        some (item :: items, after)
      | _ => none

/-- The members of an object up to its closing brace, and what follows that. -/
def readMembers (reading : Reading) (fuel room : Nat) (text : List Char) :
    Option (List (Option String × Json) × List Char) :=
  match fuel with
  | 0 => none
  | fuel + 1 =>
    match skipSpace text with
    | '"' :: rest => do
      let (key, afterKey) ← readString rest
      match skipSpace afterKey with
      | ':' :: rest => do
        let (value, afterValue) ← readValue reading fuel room rest
        match skipSpace afterValue with
        | '\x7d' :: after => some ([(key, value)], after)
        | ',' :: rest => do
          let (members, after) ← readMembers reading fuel room rest
          some ((key, value) :: members, after)
        | _ => none
      | _ => none
    | _ => none

end

/-- The document of the characters of a text. -/
def ofChars? (reading : Reading) (text : List Char) : Option Json := do
  let (document, after) ← readValue reading (text.length + 1) maxDepth text
  if (skipSpace after).isEmpty then some document else none

/-- The document a text stands for. -/
def parse? (text : String) : Option Json := ofChars? .lenient text.toList

/-- The document a text stands for, read strictly. -/
def parseStrict? (text : String) : Option Json := ofChars? .strict text.toList

end SlotLedger.Json
