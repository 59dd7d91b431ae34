import Mathlib.Data.List.Nodup
import Mathlib.Order.CompletePartialOrder
import Mathlib.Order.Interval.Set.Disjoint
import SlotLedger.Ledger.Implementation
import SlotLedger.Proofs.Layout.Takeover

/-!
# The slots of fields

A field takes the slots from its base slot on, as many as its span says.  Validation and the
compatibility check compare positions, and a position is held back at the greatest 64-bit number:
the end of a field that reaches past it reads as if the last slot were free.  So disjointness of
all fields follows from the checks of neighbours exactly as far as ends are positions.

## Main definitions

* `Field.slots`: the slots of a field, as exact numbers
* `Field.EndsInRange`: the end of a field is a position
* `Field.slotsFromLast`: the slots that an end held back leaves out

## Main results

* `Field.slotsFromLast_eq_empty_iff`: a field ends in range if its end leaves no slot out
* `Field.disjoint_slots_iff`: of two fields in order, the first has to end in range
* `Schema.toNat_slotIndex_of_shared`: only the greatest position can be that of two fields
* `Schema.disjoint_slots_iff_endsInRange`: when fields of validated layouts share no slot
-/

namespace SlotLedger

namespace Field

/-- The slots a field takes. -/
def slots (f : Field) : Set Nat :=
  Set.Ico f.slotIndex.toNat (f.slotIndex.toNat + f.slotSpan.toNat)

/-- The end of a field is a position and not held back. -/
def EndsInRange (f : Field) : Prop := f.slotIndex.toNat + f.slotSpan.toNat < UInt64.size

instance (f : Field) : Decidable f.EndsInRange := inferInstanceAs (Decidable (_ < _))

/-- The slots of a field from the greatest position on.  No end that is held back lies behind
them. -/
def slotsFromLast (f : Field) : Set Nat := {n ∈ f.slots | UInt64.size - 1 ≤ n}

/-- A field ends in range exactly if all its slots lie below the greatest position. -/
theorem slotsFromLast_eq_empty_iff (f : Field) : f.slotsFromLast = ∅ ↔ f.EndsInRange := by
  have hspan := f.slotSpan_pos
  have hstart := f.slotIndex.toNat_lt
  rw [Set.eq_empty_iff_forall_notMem, EndsInRange]
  constructor
  · intro hnone
    by_contra hend
    -- The last slot of the field would be one of them.
    exact hnone (f.slotIndex.toNat + f.slotSpan.toNat - 1) ⟨⟨by omega, by omega⟩, by omega⟩
  · rintro hend n ⟨⟨-, hstop⟩, hlast⟩
    omega

/-- Of two fields in order, the first has to end in range for them to share no slot: else both
take the last slot there is. -/
theorem disjoint_slots_iff {f g : Field} (hfg : f.Precedes g) :
    Disjoint f.slots g.slots ↔ f.EndsInRange := by
  have hle : min (f.slotIndex.toNat + f.slotSpan.toNat) (UInt64.size - 1) ≤ g.slotIndex.toNat := by
    rw [← toNat_slotEnd]
    exact UInt64.le_iff_toNat_le.mp hfg
  have hf := f.slotIndex.toNat_lt
  have hg := g.slotIndex.toNat_lt
  have hspan := g.slotSpan_pos
  rw [slots, slots, Set.Ico_disjoint_Ico, EndsInRange]
  simp only [UInt64.size] at *
  omega

/-- Of two fields in order at one position, the end of the first is held back there. -/
theorem toNat_slotIndex_of_precedes {f g : Field} (hfg : f.Precedes g)
    (hshared : f.slotIndex = g.slotIndex) : f.slotIndex.toNat = UInt64.size - 1 := by
  have hle : f.slotEnd.toNat ≤ g.slotIndex.toNat := UInt64.le_iff_toNat_le.mp hfg
  have hend := f.toNat_slotEnd
  have hspan := f.slotSpan_pos
  have hf := f.slotIndex.toNat_lt
  rw [← hshared] at hle
  simp only [UInt64.size] at *
  omega

end Field

namespace Schema

/-- Fields in order share no slot exactly if all but the last end in range. -/
theorem pairwise_disjoint_slots_iff {fields : List Field} (h : fields.Pairwise Field.Precedes) :
    fields.Pairwise (fun f g => Disjoint f.slots g.slots) ↔
      ∀ f ∈ fields.dropLast, f.EndsInRange := by
  induction fields with
  | nil => simp
  | cons f rest ih =>
    obtain ⟨hfirst, hrest⟩ := List.pairwise_cons.mp h
    rw [List.pairwise_cons, ih hrest]
    cases rest with
    | nil => simp
    | cons g rest =>
      rw [List.dropLast_cons_cons, List.forall_mem_cons (a := f)]
      refine and_congr_left fun _ => ?_
      constructor
      · intro hdisjoint
        have hg : g ∈ g :: rest := List.mem_cons_self ..
        exact (Field.disjoint_slots_iff (hfirst g hg)).mp (hdisjoint g hg)
      · intro hend k hk
        exact (Field.disjoint_slots_iff (hfirst k hk)).mpr hend

/-- Different fields of a validated layout share no slot exactly if all but the last end in
range. -/
theorem disjoint_slots_iff_of_validate {s : Schema} (hs : s.validate = .ok ()) :
    (∀ f ∈ s.fields, ∀ g ∈ s.fields, f ≠ g → Disjoint f.slots g.slots) ↔
      ∀ f ∈ s.fields.dropLast, f.EndsInRange := by
  have hnodup := nodup_fields hs
  rw [← pairwise_disjoint_slots_iff (pairwise_precedes hs)]
  constructor
  · intro h
    exact hnodup.pairwise_of_forall_ne h
  · intro h f hf g hg hne
    have hsymm : Std.Symm fun f g : Field => Disjoint f.slots g.slots := ⟨fun _ _ h => h.symm⟩
    exact h.forall hf hg hne

/-- Different fields of a validated layout start at one position only if it is the greatest. -/
theorem toNat_slotIndex_of_shared {s : Schema} (hs : s.validate = .ok ()) {f g : Field}
    (hf : f ∈ s.fields) (hg : g ∈ s.fields) (hne : f ≠ g) (hshared : f.slotIndex = g.slotIndex) :
    f.slotIndex.toNat = UInt64.size - 1 := by
  have hordered : s.fields.Pairwise fun f g => f.Precedes g ∨ g.Precedes f :=
    (pairwise_precedes hs).imp .inl
  have hsymm : Std.Symm fun f g : Field => f.Precedes g ∨ g.Precedes f := ⟨fun _ _ => Or.symm⟩
  rcases hordered.forall hf hg hne with hfg | hgf
  · exact Field.toNat_slotIndex_of_precedes hfg hshared
  · rw [hshared]
    exact Field.toNat_slotIndex_of_precedes hgf hshared.symm

/-- The slots of added fields are free of old fields exactly if nothing is added or every old field
ends in range. -/
theorem disjoint_slots_appended_iff {old new : Schema}
    (hallowed : (old.checkUpgrade new).isAllowed = true) :
    (∀ f ∈ (old.checkUpgrade new).appendedFields, ∀ g ∈ old.fields, Disjoint f.slots g.slots) ↔
      (old.checkUpgrade new).appendedFields = [] ∨ ∀ g ∈ old.fields, g.EndsInRange := by
  have hiff : ∀ f ∈ (old.checkUpgrade new).appendedFields, ∀ g ∈ old.fields,
      (Disjoint f.slots g.slots ↔ g.EndsInRange) := by
    intro f hf g hg
    rw [disjoint_comm]
    exact Field.disjoint_slots_iff (precedes_of_mem_appendedFields hallowed hg hf)
  constructor
  · intro h
    rcases List.eq_nil_or_concat (old.checkUpgrade new).appendedFields with hnone | ⟨_, f, hf⟩
    · exact .inl hnone
    · have hmem : f ∈ (old.checkUpgrade new).appendedFields := by simp [hf]
      exact .inr fun g hg => (hiff f hmem g hg).mp (h f hmem g hg)
  · rintro (hnone | hend) f hf g hg
    · rw [hnone] at hf
      cases hf
    · exact (hiff f hf g hg).mpr (hend g hg)

/-- **When fields share no slot.**  The fields of a validated layout are disjoint exactly if all
but the last end in range, and the fields that an allowed layout adds are disjoint from the old
ones exactly if it adds none or every old field ends in range. -/
theorem disjoint_slots_iff_endsInRange (s old new : Schema) :
    (s.validate = .ok () →
        ((∀ f ∈ s.fields, ∀ g ∈ s.fields, f ≠ g → Disjoint f.slots g.slots) ↔
          ∀ f ∈ s.fields.dropLast, f.EndsInRange)) ∧
      ((old.checkUpgrade new).isAllowed = true →
        ((∀ f ∈ (old.checkUpgrade new).appendedFields, ∀ g ∈ old.fields,
            Disjoint f.slots g.slots) ↔
          (old.checkUpgrade new).appendedFields = [] ∨ ∀ g ∈ old.fields, g.EndsInRange)) :=
  ⟨disjoint_slots_iff_of_validate, disjoint_slots_appended_iff⟩

/-- The second layout of the token: its five fields share no slot, and the audited counter takes
none of the first layout's. -/
theorem disjoint_slots_tokenV2 :
    tokenV2.validate = .ok () ∧ (tokenV1.checkUpgrade tokenV2).isAllowed = true ∧
      (∀ f ∈ tokenV2.fields, ∀ g ∈ tokenV2.fields, f ≠ g → Disjoint f.slots g.slots) ∧
      (tokenV1.checkUpgrade tokenV2).appendedFields ≠ [] ∧
      ∀ f ∈ (tokenV1.checkUpgrade tokenV2).appendedFields, ∀ g ∈ tokenV1.fields,
        Disjoint f.slots g.slots := by
  have hvalid : tokenV2.validate = .ok () := by decide +kernel
  have hallowed : (tokenV1.checkUpgrade tokenV2).isAllowed = true := by decide +kernel
  obtain ⟨hfields, hadded⟩ := disjoint_slots_iff_endsInRange tokenV2 tokenV1 tokenV2
  refine ⟨hvalid, hallowed, (hfields hvalid).mpr ?_, ?_, (hadded hallowed).mpr (.inr ?_)⟩ <;>
    decide +kernel

/-- Two counters at the greatest position: the end of the first is held back, so validation finds
the second in order. -/
def lastSlotTwice : Schema :=
  ⟨"Clash", 1, [.ofType "first" .uint256 0xffffffffffffffff,
    .ofType "second" .uint256 0xffffffffffffffff]⟩

/-- A layout that validation accepts although two of its fields take the same slot. -/
theorem not_disjoint_slots_lastSlotTwice :
    lastSlotTwice.validate = .ok () ∧
      ¬ ∀ f ∈ lastSlotTwice.fields, ∀ g ∈ lastSlotTwice.fields, f ≠ g →
        Disjoint f.slots g.slots := by
  have hvalid : lastSlotTwice.validate = .ok () := by decide +kernel
  refine ⟨hvalid, fun h => ?_⟩
  have hend := (disjoint_slots_iff_of_validate hvalid).mp h
  revert hend
  decide +kernel

end Schema

end SlotLedger
