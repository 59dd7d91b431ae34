/-!
# JSON documents

A document as a tree.  Objects keep their members in written order with repeated keys visible, since
readers refuse a repeated key.  A numeral that is no natural number below 2^64 keeps its written
form; no reader of this library takes one.
-/

namespace SlotLedger

/-- A JSON document. -/
inductive Json where
  | null
  | bool (value : Bool)
  /-- A number written as a natural number below 2^64. -/
  | natural (value : UInt64)
  /-- Any other number, as written. -/
  | real (numeral : String)
  | string (text : String)
  | array (items : List Json)
  | object (members : List (String × Json))
  /-- Text that has the form of a document and no value: an unpaired surrogate escape, a numeral
  beyond the range of doubles, or a container nested too deep.  Also the last item of an array that
  ends in something else. -/
  | unreadable

namespace Json

/-- The number of containers a document may nest. -/
def maxDepth : Nat := 127

mutual

/-- Whether every part of a document has a value. -/
def isReadable : Json → Bool
  | .unreadable => false
  | .array items => areReadable items
  | .object members => membersReadable members
  | _ => true

/-- Whether every part of each document has a value. -/
def areReadable : List Json → Bool
  | [] => true
  | item :: rest => isReadable item && areReadable rest

/-- Whether every part of each member's document has a value. -/
def membersReadable : List (String × Json) → Bool
  | [] => true
  | (_, value) :: rest => isReadable value && membersReadable rest

end

/-- A value that may be absent, as a document. -/
def ofOption {α : Type} (write : α → Json) : Option α → Json
  | some a => write a
  | none => .null

/-- A natural number below 2^32 as a document. -/
def ofUInt32 (n : UInt32) : Json := .natural (UInt64.ofNat n.toNat)

end Json

end SlotLedger
