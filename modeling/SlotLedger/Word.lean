import SlotLedger.Bytes

/-!
# Words

A ledger stores words of 256 bits, addresses them by slots of 256 bits, and counts tokens in
amounts of 256 bits.
-/

namespace SlotLedger

/-- A storage word: an unsigned number of 256 bits. -/
abbrev Word := BitVec 256

/-- The address of a storage word. -/
abbrev Slot := Word

/-- A number of tokens; it fills one word. -/
abbrev Amount := Word

instance : Std.TransOrd Word := inferInstanceAs (Std.TransOrd (BitVec 256))

instance : Std.LawfulEqOrd Word := inferInstanceAs (Std.LawfulEqOrd (BitVec 256))

namespace Word

/-- One more than the greatest word. -/
def bound : Nat := Nat.pow 2 256

/-- The thirty-two octets of a word, highest first. -/
def bytes (w : Word) : Bytes := Bytes.bigEndian 32 w.toNat

/-- The word with the given octets, highest first. -/
def ofBytes (bytes : Bytes) : Word := BitVec.ofNat 256 (Bytes.ofBigEndian bytes)

/-- Sixty-four lowercase hexadecimal digits. -/
def hex (w : Word) : String := Bytes.hex (bytes w)

/-- `0x` and the lowercase hexadecimal digits without leading zeros. -/
def shortHex (w : Word) : String := String.ofList ('0' :: 'x' :: Nat.toDigits 16 w.toNat)

/-- The decimal digits without leading zeros. -/
def decimal (w : Word) : String := String.ofList (Nat.toDigits 10 w.toNat)

@[simp] theorem length_bytes (w : Word) : (bytes w).length = 32 := Bytes.length_bigEndian ..

@[simp] theorem ofBytes_bytes (w : Word) : ofBytes (bytes w) = w := by
  apply BitVec.eq_of_toNat_eq
  simp only [ofBytes, bytes, Bytes.ofBigEndian_bigEndian, BitVec.toNat_ofNat, Nat.pow_eq]
  have := w.isLt
  omega

end Word

end SlotLedger
