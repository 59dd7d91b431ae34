/-!
# Semantic types

The declared type of a storage field: a scalar, a hashed mapping that takes one base slot, or an
array laid out in line.
-/

namespace SlotLedger

/-- The declared type of a field. -/
inductive SemanticType where
  | uint8
  | uint64
  | uint128
  | uint256
  | int256
  | address
  | bool
  | bytes32
  /-- A mapping; its entries live at hashed slots. -/
  | mapping (key value : SemanticType)
  /-- An array of a fixed length, from its base slot on. -/
  | array (element : SemanticType) (length : UInt32)
deriving DecidableEq, Repr

/-- Octets in a storage word. -/
def wordWidth : UInt32 := 32

namespace SemanticType

/-- The octets a value takes in the slot space, unless they are too many for 32 bits. -/
def naturalWidth : SemanticType → Option UInt32
  | uint8 | bool => some 1
  | uint64 => some 8
  | uint128 => some 16
  | address => some 20
  | uint256 | int256 | bytes32 | mapping _ _ => some wordWidth
  | array element length => do
    let total := (← element.naturalWidth).toNat * length.toNat
    if total < UInt32.size then some (UInt32.ofNat total) else none

/-- Whether the type is an unsigned integer. -/
def isUnsigned : SemanticType → Bool
  | uint8 | uint64 | uint128 | uint256 => true
  | _ => false

/-- Whether the type is a mapping. -/
def isMapping : SemanticType → Bool
  | mapping _ _ => true
  | _ => false

/-- Whether the type is an array whose elements are mappings. -/
def isArrayOfMappings : SemanticType → Bool
  | array element _ => element.isMapping
  | _ => false

/-- Whether two types differ in size alone: unsigned integers, or arrays of one element type. -/
def sameFamily : SemanticType → SemanticType → Bool
  | array a _, array b _ => a == b
  | a, b => a.isUnsigned && b.isUnsigned

/-- The type in words. -/
def text : SemanticType → String
  | uint8 => "uint8"
  | uint64 => "uint64"
  | uint128 => "uint128"
  | uint256 => "uint256"
  | int256 => "int256"
  | address => "address"
  | bool => "bool"
  | bytes32 => "bytes32"
  | mapping key value => "mapping(" ++ key.text ++ " => " ++ value.text ++ ")"
  | array element length => element.text ++ "[" ++ toString length.toNat ++ "]"

end SemanticType

end SlotLedger
