/-!
# Byte strings

Octets as lists, with the fixed-width numbers and the text encodings the ledger writes.

## Main definitions

* `littleEndian`, `bigEndian`, `ofBigEndian`, `ofLittleEndian`: numbers as octets.
* `hex`: two lowercase hexadecimal digits per octet.
* `utf8`, `utf8?`: text as UTF-8 octets and back.
-/

namespace SlotLedger

/-- A string of octets. -/
abbrev Bytes := List UInt8

namespace Bytes

/-- The `width` lowest octets of a number, lowest first. -/
def littleEndian : (width : Nat) → Nat → Bytes
  | 0, _ => []
  | width + 1, n => UInt8.ofNat n :: littleEndian width (n / 256)

/-- The `width` lowest octets of a number, highest first. -/
def bigEndian (width n : Nat) : Bytes := (littleEndian width n).reverse

/-- The number whose octets are given lowest first. -/
def ofLittleEndian : Bytes → Nat
  | [] => 0
  | b :: rest => b.toNat + 256 * ofLittleEndian rest

/-- The number whose octets are given highest first. -/
def ofBigEndian (bytes : Bytes) : Nat := ofLittleEndian bytes.reverse

@[simp] theorem length_littleEndian (width n : Nat) : (littleEndian width n).length = width := by
  induction width generalizing n with
  | zero => rfl
  | succ width ih => simp [littleEndian, ih]

@[simp] theorem length_bigEndian (width n : Nat) : (bigEndian width n).length = width := by
  simp [bigEndian]

theorem ofLittleEndian_littleEndian (width n : Nat) :
    ofLittleEndian (littleEndian width n) = n % Nat.pow 256 width := by
  induction width generalizing n with
  | zero => simp [littleEndian, ofLittleEndian, Nat.mod_one]
  | succ width ih =>
    simp only [littleEndian, ofLittleEndian, ih, Nat.pow_eq]
    rw [Nat.pow_succ', Nat.mod_mul]
    simp [UInt8.toNat_ofNat']

theorem ofBigEndian_bigEndian (width n : Nat) :
    ofBigEndian (bigEndian width n) = n % Nat.pow 256 width := by
  simp [ofBigEndian, bigEndian, ofLittleEndian_littleEndian]

/-- Two lowercase hexadecimal digits per octet, in order. -/
def hexChars (bytes : Bytes) : List Char :=
  bytes.flatMap fun b => [Nat.digitChar (b.toNat / 16), Nat.digitChar (b.toNat % 16)]

/-- The octets as lowercase hexadecimal text without a leading `0x`. -/
def hex (bytes : Bytes) : String := String.ofList bytes.hexChars

/-- The UTF-8 octets of a text. -/
def utf8 (text : String) : Bytes := text.toByteArray.data.toList

/-- The text with the given UTF-8 octets, if they are well formed. -/
def utf8? (bytes : Bytes) : Option String := String.fromUTF8? ⟨bytes.toArray⟩

/-- Different texts have different octets. -/
theorem utf8_inj {s t : String} (h : utf8 s = utf8 t) : s = t :=
  String.toByteArray_inj.mp (ByteArray.ext (Array.toList_inj.mp h))

/-- Reading back the octets of a text gives the text. -/
@[simp] theorem utf8?_utf8 (s : String) : utf8? (utf8 s) = some s := by
  have whole : (⟨(utf8 s).toArray⟩ : ByteArray) = s.toByteArray := by simp [utf8]
  rw [utf8?, whole, String.fromUTF8?, dif_pos s.isValidUTF8]
  rfl

end Bytes

end SlotLedger
