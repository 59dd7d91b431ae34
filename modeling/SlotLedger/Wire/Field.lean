import SlotLedger.Bytes

/-!
# Wire fields

The Protocol Buffers wire format: a message is a sequence of fields, each a number, a wire type and
a value.  Nothing here knows what the fields of a message mean.

## Main definitions

* `Wire.varint`, `Wire.readVarint`: numbers in groups of seven bits, lowest first.
* `Wire.Field`: a field number and a value.
* `Wire.encode`, `Wire.decode`: sequences of fields as octets and back.
-/

namespace SlotLedger.Wire

/-! ## Varints -/

/-- The groups of a number: at most `more` groups and a last one. -/
def varintGroups : (more : Nat) → Nat → Bytes
  | 0, n => [UInt8.ofNat n]
  | more + 1, n =>
    if n < 128 then [UInt8.ofNat n]
    else UInt8.ofNat (n % 128 + 128) :: varintGroups more (n / 128)

/-- A number below 2^64 in as few groups as possible. -/
def varint (n : Nat) : Bytes := varintGroups 9 n

/-- A number of at most `groups` groups, and what follows it. -/
def readGroups : (groups : Nat) → Bytes → Option (Nat × Bytes)
  | 0, _ => none
  | _, [] => none
  | groups + 1, b :: rest =>
    if b.toNat < 128 then
      -- Nine groups are 63 bits, so one bit is left for the tenth.
      if groups = 0 ∧ 2 ≤ b.toNat then none else some (b.toNat, rest)
    else do
      let (high, after) ← readGroups groups rest
      some (b.toNat - 128 + 128 * high, after)

/-- A number of at most ten groups, the tenth at most one, and what follows it. -/
def readVarint (bytes : Bytes) : Option (Nat × Bytes) := readGroups 10 bytes

/-! ## Fields -/

/-- A field's value. -/
inductive Value where
  | varint (n : Nat)
  | fixed64 (octets : Bytes)
  | delimited (octets : Bytes)
  /-- A group; what is in it is not kept. -/
  | group
  | fixed32 (octets : Bytes)
deriving DecidableEq

/-- A field of a message. -/
structure Field where
  number : Nat
  value : Value
deriving DecidableEq

/-- The number of a value's wire type. -/
def Value.wireType : Value → Nat
  | .varint _ => 0
  | .fixed64 _ => 1
  | .delimited _ => 2
  | .group => 3
  | .fixed32 _ => 5

/-- The wire type that ends a group. -/
def endGroup : Nat := 4

/-- A field's number and wire type. -/
def key (number wireType : Nat) : Bytes := varint (8 * number + wireType)

/-- A field as octets. -/
def Field.encode (f : Field) : Bytes :=
  key f.number f.value.wireType ++
    match f.value with
    | .varint n => varint n
    | .fixed64 octets => octets
    | .delimited octets => varint octets.length ++ octets
    | .group => key f.number endGroup
    | .fixed32 octets => octets

/-- Fields as octets. -/
def encode (fields : List Field) : Bytes := fields.flatMap Field.encode

/-- A field's number, its wire type, and what follows them.  The key has at most 32 bits and its
number is positive. -/
def readKey (bytes : Bytes) : Option (Nat × Nat × Bytes) := do
  let (key, rest) ← readVarint bytes
  if key < UInt32.size ∧ 8 ≤ key then some (key / 8, key % 8, rest) else none

/-- The first octets, if there are enough of them, and the rest. -/
def readOctets (count : Nat) (bytes : Bytes) : Option (Bytes × Bytes) :=
  if count ≤ bytes.length then some (bytes.take count, bytes.drop count) else none

/-- A value that is no group, and what follows it. -/
def readScalar (wireType : Nat) (bytes : Bytes) : Option (Value × Bytes) :=
  match wireType with
  | 0 => (readVarint bytes).map fun p => (.varint p.1, p.2)
  | 1 => (readOctets 8 bytes).map fun p => (.fixed64 p.1, p.2)
  | 2 => do
    let (count, rest) ← readVarint bytes
    let (octets, after) ← readOctets count rest
    some (.delimited octets, after)
  | 5 => (readOctets 4 bytes).map fun p => (.fixed32 p.1, p.2)
  | _ => none

/-- What follows a group of the given number.  A field inside it takes one level of `room` and has
to leave one; `fuel` bounds the number of fields. -/
def readGroup : (fuel room number : Nat) → Bytes → Option Bytes
  | 0, _, _, _ => none
  | fuel + 1, room, number, bytes => do
    let (inner, wireType, rest) ← readKey bytes
    if wireType = endGroup then
      if inner = number then some rest else none
    else if room ≤ 1 then
      none
    else if wireType = 3 then do
      let after ← readGroup fuel (room - 1) inner rest
      readGroup fuel room number after
    else do
      let (_, after) ← readScalar wireType rest
      readGroup fuel room number after

/-- One field and what follows it. -/
def readField (room : Nat) (bytes : Bytes) : Option (Field × Bytes) := do
  let (number, wireType, rest) ← readKey bytes
  if wireType = 3 then do
    let after ← readGroup (rest.length + 1) room number rest
    some (⟨number, .group⟩, after)
  else do
    let (value, after) ← readScalar wireType rest
    some (⟨number, value⟩, after)

/-- At most `fuel` fields to the end of the octets. -/
def decodeFrom (room : Nat) : (fuel : Nat) → Bytes → Option (List Field)
  | _, [] => some []
  | 0, _ => none
  | fuel + 1, bytes => do
    let (field, rest) ← readField room bytes
    (field :: ·) <$> decodeFrom room fuel rest

/-- The fields of a message in which groups may nest `room` deep. -/
def decode (room : Nat) (bytes : Bytes) : Option (List Field) := decodeFrom room bytes.length bytes

end SlotLedger.Wire
