import SlotLedger.Digest.Keccak
import SlotLedger.Word

/-!
# Accounts

An account is a number of 160 bits.  Documents hold it as forty lowercase hexadecimal digits;
messages show it with a checksum in the case of its letters.
-/

namespace SlotLedger

/-- The holder of a balance or of a role. -/
abbrev Account := BitVec 160

instance : Std.TransOrd Account := inferInstanceAs (Std.TransOrd (BitVec 160))

instance : Std.LawfulEqOrd Account := inferInstanceAs (Std.LawfulEqOrd (BitVec 160))

namespace Account

/-- The twenty octets of an account, highest first. -/
def bytes (a : Account) : Bytes := Bytes.bigEndian 20 a.toNat

/-- The account with the given octets, highest first. -/
def ofBytes (bytes : Bytes) : Account := BitVec.ofNat 160 (Bytes.ofBigEndian bytes)

/-- The account as the key of a mapping: a word with zeros above the account's bits. -/
def key (a : Account) : Word := a.setWidth 256

/-- Forty lowercase hexadecimal digits. -/
def digits (a : Account) : List Char := Bytes.hexChars (bytes a)

/-- `0x` and forty lowercase hexadecimal digits. -/
def hex (a : Account) : String := String.ofList ('0' :: 'x' :: digits a)

/-- A digit in upper case if it is a letter and its digit of the digest is eight or more. -/
def checksummedDigit (digit : Char) (check : Char) : Char :=
  if '8' ≤ check then digit.toUpper else digit

/-- `0x` and forty hexadecimal digits whose letters are upper case where the Keccak digest of the
lowercase digits has a digit of eight or more. -/
def checksummed (a : Account) : String :=
  let digits := a.digits
  let check := Bytes.hexChars (Keccak.digest (Bytes.utf8 (String.ofList digits)))
  String.ofList ('0' :: 'x' :: List.zipWith checksummedDigit digits check)

@[simp] theorem length_bytes (a : Account) : (bytes a).length = 20 := Bytes.length_bigEndian ..

@[simp] theorem ofBytes_bytes (a : Account) : ofBytes (bytes a) = a := by
  apply BitVec.eq_of_toNat_eq
  simp only [ofBytes, bytes, Bytes.ofBigEndian_bigEndian, BitVec.toNat_ofNat, Nat.pow_eq]
  have := a.isLt
  omega

/-- Different accounts have different keys. -/
theorem key_inj {a b : Account} (h : key a = key b) : a = b := by
  apply BitVec.eq_of_toNat_eq
  have := congrArg BitVec.toNat h
  simp only [key, BitVec.toNat_setWidth] at this
  have := a.isLt
  have := b.isLt
  omega

end Account

end SlotLedger
