import Mathlib.Algebra.Ring.Nat
import SlotLedger.Account

/-!
# Octets of a fixed length

Accounts and words are written with as many octets as they have room for, highest first.  So octets
of the right length are those of the number they stand for, nothing is lost in either direction, and
different words have different octets.

## Main results

* `Bytes.bigEndian_ofBigEndian`: octets are those of the number they stand for
* `Account.bytes_ofBytes`, `Word.bytes_ofBytes`: octets of the right length are read without loss
* `Word.toNat_ofBytes`, `Word.bytes_inj`: the number of a word's octets, and octets tell the word
-/

namespace SlotLedger

namespace Bytes

theorem littleEndian_ofLittleEndian (octets : Bytes) :
    littleEndian octets.length (ofLittleEndian octets) = octets := by
  induction octets with
  | nil => rfl
  | cons b rest ih =>
    have hb : UInt8.ofNat (b.toNat + 256 * ofLittleEndian rest) = b := by
      have hlt := b.toNat_lt
      apply UInt8.toNat_inj.mp
      rw [UInt8.toNat_ofNat']
      omega
    have hrest : (b.toNat + 256 * ofLittleEndian rest) / 256 = ofLittleEndian rest := by
      have hlt := b.toNat_lt
      omega
    rw [ofLittleEndian, List.length_cons, littleEndian, hb, hrest, ih]

theorem ofLittleEndian_lt (octets : Bytes) : ofLittleEndian octets < 256 ^ octets.length := by
  induction octets with
  | nil => exact Nat.one_pos
  | cons b rest ih =>
    have hb := b.toNat_lt
    rw [ofLittleEndian, List.length_cons, Nat.pow_succ]
    omega

/-- Octets are those of the number they stand for. -/
theorem bigEndian_ofBigEndian (octets : Bytes) :
    bigEndian octets.length (ofBigEndian octets) = octets := by
  have hreverse := littleEndian_ofLittleEndian octets.reverse
  rw [List.length_reverse] at hreverse
  rw [bigEndian, ofBigEndian, hreverse, List.reverse_reverse]

theorem ofBigEndian_lt (octets : Bytes) : ofBigEndian octets < 256 ^ octets.length := by
  rw [← List.length_reverse]
  exact ofLittleEndian_lt _

/-- Octets are those of the word that has just enough bits for them. -/
theorem bigEndian_toNat_ofNat (octets : Bytes) :
    bigEndian octets.length (BitVec.ofNat (8 * octets.length) (ofBigEndian octets)).toNat =
      octets := by
  rw [BitVec.toNat_ofNat, Nat.pow_mul, Nat.mod_eq_of_lt (ofBigEndian_lt octets),
    bigEndian_ofBigEndian]

end Bytes

theorem Account.bytes_ofBytes {octets : Bytes} (hlength : octets.length = 20) :
    (ofBytes octets).bytes = octets := by
  have hoctets := Bytes.bigEndian_toNat_ofNat octets
  rw [hlength] at hoctets
  exact hoctets

theorem Word.bytes_ofBytes {octets : Bytes} (hlength : octets.length = 32) :
    bytes (ofBytes octets) = octets := by
  have hoctets := Bytes.bigEndian_toNat_ofNat octets
  rw [hlength] at hoctets
  exact hoctets

/-- The octets of accounts are twenty each. -/
theorem Account.exists_bytes_eq_iff {octets : Bytes} :
    (∃ a : Account, a.bytes = octets) ↔ octets.length = 20 :=
  ⟨fun ⟨a, ha⟩ => ha ▸ a.length_bytes, fun hlength => ⟨_, bytes_ofBytes hlength⟩⟩

/-- The octets of words are thirty-two each. -/
theorem Word.exists_bytes_eq_iff {octets : Bytes} :
    (∃ w : Word, Word.bytes w = octets) ↔ octets.length = 32 :=
  ⟨fun ⟨w, hw⟩ => hw ▸ Word.length_bytes w, fun hlength => ⟨_, bytes_ofBytes hlength⟩⟩

/-- Thirty-two octets are read as the number they stand for. -/
theorem Word.toNat_ofBytes {octets : Bytes} (hlength : octets.length = 32) :
    (ofBytes octets).toNat = Bytes.ofBigEndian octets := by
  have hlt := Bytes.ofBigEndian_lt octets
  rw [hlength] at hlt
  rw [ofBytes, BitVec.toNat_ofNat, Nat.mod_eq_of_lt]
  exact hlt

/-- Different words have different octets. -/
theorem Word.bytes_inj {v w : Word} (h : bytes v = bytes w) : v = w := by
  rw [← ofBytes_bytes v, h, ofBytes_bytes]

end SlotLedger
