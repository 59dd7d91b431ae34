import SlotLedger.Layout.SemanticType

/-!
# Fields

A named part of a layout: its type, its base slot and its width.  A field takes whole slots, one at
least, from its base slot on; positions beyond the greatest 64-bit slot number count as that number.
-/

namespace SlotLedger

/-- The position of a field among the low slots. -/
abbrev SlotIndex := UInt64

namespace SlotIndex

/-- The position `count` slots further on, at most the greatest position. -/
def advance (i : SlotIndex) (count : UInt64) : SlotIndex :=
  UInt64.ofNat (min (i.toNat + count.toNat) (UInt64.size - 1))

/-- The slot at a position. -/
def slot (i : SlotIndex) : BitVec 256 := BitVec.ofNat 256 i.toNat

theorem toNat_advance (i : SlotIndex) (count : UInt64) :
    (advance i count).toNat = min (i.toNat + count.toNat) (UInt64.size - 1) := by
  have : min (i.toNat + count.toNat) (UInt64.size - 1) < UInt64.size := by
    simp only [UInt64.size]
    omega
  rw [advance, UInt64.toNat_ofNat', Nat.mod_eq_of_lt this]

end SlotIndex

/-- One declared field of a layout. -/
structure Field where
  name : String
  semanticType : SemanticType
  slotIndex : SlotIndex
  byteWidth : UInt32
deriving DecidableEq, Repr

namespace Field

/-- A field with the natural width of its type; the width is zero where there is none. -/
def ofType (name : String) (semanticType : SemanticType) (slotIndex : SlotIndex) : Field :=
  ⟨name, semanticType, slotIndex, semanticType.naturalWidth.getD 0⟩

/-- The number of slots the field takes: enough for its octets and one at least. -/
def slotSpan (f : Field) : UInt64 :=
  UInt64.ofNat (max ((f.byteWidth.toNat + wordWidth.toNat - 1) / wordWidth.toNat) 1)

/-- The position after the field's last slot. -/
def slotEnd (f : Field) : SlotIndex := f.slotIndex.advance f.slotSpan

/-- Whether two fields have the same slot, type and width, whatever their names. -/
def sameShape (f g : Field) : Bool :=
  f.slotIndex == g.slotIndex && f.semanticType == g.semanticType && f.byteWidth == g.byteWidth

/-- The field in words. -/
def text (f : Field) : String :=
  s!"{f.semanticType.text} {f.name} @ slot {f.slotIndex.toNat} ({f.byteWidth.toNat} bytes)"

end Field

end SlotLedger
