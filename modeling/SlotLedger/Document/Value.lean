import SlotLedger.Account
import SlotLedger.Amount
import SlotLedger.Json.Record
import SlotLedger.Role
import SlotLedger.Storage

/-!
# Words, accounts, roles and amounts in documents

Words are written as short hexadecimal numerals and read in four radices; accounts are written as
forty digits; roles go by name; amounts of operations are decimal numerals.
-/

namespace SlotLedger

/-! ## Words -/

/-- The word of a numeral: hexadecimal, octal or binary after the usual marks, else decimal. -/
def Word.ofNumeral? (text : String) : Option Word :=
  let digits (rest : List Char) := Bytes.utf8 (String.ofList rest)
  match text.toList with
  | '0' :: 'x' :: rest | '0' :: 'X' :: rest => Numeral.word? 16 (digits rest)
  | '0' :: 'o' :: rest | '0' :: 'O' :: rest => Numeral.word? 8 (digits rest)
  | '0' :: 'b' :: rest | '0' :: 'B' :: rest => Numeral.word? 2 (digits rest)
  | _ => Numeral.word? 10 (Bytes.utf8 text)

/-- A word: a natural number below 2^64, or a numeral. -/
def Word.ofJson? : Json → Option Word
  | .natural n => some (BitVec.ofNat 256 n.toNat)
  | .string text => Word.ofNumeral? text
  | _ => none

/-- A word as a short hexadecimal numeral. -/
def Word.toJson (w : Word) : Json := .string (Word.shortHex w)

/-- A stored word: its slot and its value. -/
def StorageWord.ofJson? (j : Json) : Option StorageWord := do
  let r ← j.record? ["slot", "value"] .refused
  some ⟨← r.required "slot" Word.ofJson?, ← r.required "value" Word.ofJson?⟩

/-- A stored word as a document. -/
def StorageWord.toJson (w : StorageWord) : Json :=
  .object [("slot", Word.toJson w.slot), ("value", Word.toJson w.value)]

/-! ## Accounts -/

namespace Account

/-- The octet of two hexadecimal digits. -/
def octet? (a b : UInt8) : Option UInt8 := do
  some (UInt8.ofNat (16 * (← Numeral.digit? 16 a) + (← Numeral.digit? 16 b)))

/-- The octets of pairs of hexadecimal digits. -/
def octets? : Bytes → Option Bytes
  | [] => some []
  | a :: b :: rest => do
    let octet ← octet? a b
    (octet :: ·) <$> octets? rest
  | [_] => none

/-- The account of twenty octets. -/
def ofOctets? (octets : Bytes) : Option Account :=
  if octets.length = 20 then some (ofBytes octets) else none

/-- The account of forty hexadecimal digits in any case, with or without `0x` before them. -/
def ofText? (text : String) : Option Account := do
  let digits :=
    match text.toList with
    | '0' :: 'x' :: rest | '0' :: 'X' :: rest => rest
    | rest => rest
  ofOctets? (← octets? (Bytes.utf8 (String.ofList digits)))

/-- An octet written as a number. -/
def octetOfJson? : Json → Option UInt8
  | .natural n => if n.toNat < 256 then some (UInt8.ofNat n.toNat) else none
  | _ => none

/-- Whether a document is neither an array nor an object. -/
def isScalar : Json → Bool
  | .array _ | .object _ => false
  | _ => true

/-- The account of twenty octets.  Reading ends with the twentieth; an item that follows it does not
matter if it may be passed over and is no octet, and a second one is refused. -/
def ofItems? (passes : Json → Bool) (items : List Json) : Option Account :=
  match items.drop 20 with
  | [] => do ofOctets? (← items.mapM octetOfJson?)
  | [item] =>
    if passes item && (octetOfJson? item).isNone then do
      ofOctets? (← (items.take 20).mapM octetOfJson?)
    else none
  | _ => none

/-- An account: its digits, or its octets, behind which `passes` tells what may be passed over. -/
def read? (passes : Json → Bool) : Json → Option Account
  | .string text => ofText? text
  | .array items => ofItems? passes items
  | _ => none

/-- An account in a document that is there as a whole. -/
def ofJson? (j : Json) : Option Account := read? (fun _ => true) j

/-- An account in a document that is read on the way, where a container cannot be passed over. -/
def ofStrict? (j : Json) : Option Account := read? isScalar j

/-- An account as `0x` and its digits in lower case. -/
def toJson (a : Account) : Json := .string a.hex

end Account

/-! ## Roles -/

/-- A role by its name. -/
def Role.ofJson? (j : Json) : Option Role := do Role.ofName? (← j.unitVariant?)

/-- A role by its name, where an empty object may stand for the missing content of the choice. -/
def Role.ofContent? (j : Json) : Option Role :=
  match j.variant? with
  | some (name, some (.object [])) => Role.ofName? name
  | _ => Role.ofJson? j

/-- A role as its name. -/
def Role.toJson (r : Role) : Json := .string r.name

/-! ## Amounts -/

/-- An amount as a numeral. -/
def Amount.ofJson? : Json → Option Amount
  | .string text => (Amount.parse text).toOption
  | _ => none

/-- An amount as its decimal digits. -/
def Amount.toJson (a : Amount) : Json := .string (Word.decimal a)

end SlotLedger
