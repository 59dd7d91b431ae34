import Mathlib.Algebra.BigOperators.Group.List.Basic
import Mathlib.Algebra.Ring.Nat
import SlotLedger.Proofs.Layout.Validation

/-!
# Widths

The width of an array is multiplied up from the inside, and each product has to fit 32 bits.  As
long as no array is empty a product only grows on the way out, so a product that does not fit on the
way is none that would fit in the end: a width is that of the whole, or there is none.  A field
without a width takes a slot when it is laid out, and validation refuses it.

## Main definitions

* `SemanticType.arrayLengths`, `SemanticType.innermostWidth`: what the width of a type is made of
* `SemanticType.exactWidth`: the width of a type as an exact number

## Main results

* `SemanticType.naturalWidth_eq_ite`: the natural width is the exact one, if that fits
* `Field.toNat_slotSpan_of_naturalWidth`: a field takes the slots it needs
* `Schema.validate_append_ofType`: what validation says of a field without a width
* `SemanticType.naturalWidth_exact`: widths are exact or refused
-/

namespace SlotLedger

namespace SemanticType

/-- The lengths of the arrays around the innermost elements, the outermost one first. -/
def arrayLengths : SemanticType → List Nat
  | array element length => length.toNat :: element.arrayLengths
  | _ => []

/-- The octets of an innermost element; a mapping takes one word whatever it maps. -/
def innermostWidth : SemanticType → Nat
  | uint8 | bool => 1
  | uint64 => 8
  | uint128 => 16
  | address => 20
  | uint256 | int256 | bytes32 | mapping _ _ => 32
  | array element _ => element.innermostWidth

/-- The octets of a type, however many they are. -/
def exactWidth (t : SemanticType) : Nat := t.arrayLengths.prod * t.innermostWidth

theorem exactWidth_array (element : SemanticType) (length : UInt32) :
    (array element length).exactWidth = element.exactWidth * length.toNat := by
  rw [exactWidth, arrayLengths, innermostWidth, List.prod_cons, exactWidth, mul_assoc, mul_comm]

/-- Without empty arrays a type has octets. -/
theorem exactWidth_pos {t : SemanticType} (ht : ∀ n ∈ t.arrayLengths, n ≠ 0) :
    0 < t.exactWidth := by
  induction t with
  | array element length ih =>
    obtain ⟨hlength, helement⟩ := List.forall_mem_cons.mp ht
    rw [exactWidth_array]
    exact Nat.mul_pos (ih helement) (Nat.pos_of_ne_zero hlength)
  | _ => simp [exactWidth, arrayLengths, innermostWidth]

/-- **The natural width** is the exact one, if that fits 32 bits. -/
theorem naturalWidth_eq_ite {t : SemanticType} (ht : ∀ n ∈ t.arrayLengths, n ≠ 0) :
    t.naturalWidth =
      if t.exactWidth < UInt32.size then some (UInt32.ofNat t.exactWidth) else none := by
  induction t with
  | array element length ih =>
    obtain ⟨hlength, helement⟩ := List.forall_mem_cons.mp ht
    -- The elements are no wider than the array, so the array does not fit where they do not.
    have hle : element.exactWidth ≤ element.exactWidth * length.toNat :=
      Nat.le_mul_of_pos_right _ (Nat.pos_of_ne_zero hlength)
    rw [naturalWidth, ih helement, exactWidth_array]
    by_cases hfits : element.exactWidth < UInt32.size
    · have hwidth : (UInt32.ofNat element.exactWidth).toNat = element.exactWidth :=
        UInt32.toNat_ofNat_of_lt' hfits
      simp only [if_pos hfits, Option.bind_eq_bind, Option.bind_some, hwidth]
    · rw [if_neg hfits, if_neg fun h => hfits (Nat.lt_of_le_of_lt hle h)]
      rfl
  | _ => rfl

/-- An empty array has no width either if its elements do not fit. -/
example : (array (array uint256 134217728) 0).naturalWidth = none ∧
    (array (array uint256 134217728) 0).exactWidth = 0 := by
  decide

theorem naturalWidth_eq_some_iff {t : SemanticType} (ht : ∀ n ∈ t.arrayLengths, n ≠ 0)
    {w : UInt32} : t.naturalWidth = some w ↔ t.exactWidth < UInt32.size ∧ w.toNat = t.exactWidth := by
  rw [naturalWidth_eq_ite ht]
  by_cases hfits : t.exactWidth < UInt32.size
  · have hwidth := UInt32.toNat_ofNat_of_lt' hfits
    rw [if_pos hfits, Option.some_inj, ← UInt32.toNat_inj, hwidth]
    exact ⟨fun h => ⟨hfits, h.symm⟩, fun h => h.2.symm⟩
  · simp [hfits]

end SemanticType

/-- **A field of its natural width** takes as many slots as its octets need, the last one perhaps
not filled. -/
theorem Field.toNat_slotSpan_of_naturalWidth {f : Field}
    (ht : ∀ n ∈ f.semanticType.arrayLengths, n ≠ 0)
    (hf : f.semanticType.naturalWidth = some f.byteWidth) :
    f.slotSpan.toNat = (f.semanticType.exactWidth + 31) / 32 := by
  obtain ⟨-, hwidth⟩ := (SemanticType.naturalWidth_eq_some_iff ht).mp hf
  have hpos := SemanticType.exactWidth_pos ht
  rw [toNat_slotSpan, hwidth]
  omega

namespace Schema

variable (schema : String) (version : UInt32) (before later : List Field)

/-- **A field without a width** is refused for it when validation comes to it, which it does if the
fields before it pass; only the check of its name comes first. -/
theorem validate_append_ofType {t : SemanticType} (ht : t.naturalWidth = none) (name : String)
    (i : SlotIndex) :
    validate ⟨schema, version, before ++ .ofType name t i :: later⟩ =
      (validate ⟨schema, version, before⟩).bind fun _ =>
        if name ∈ before.map Field.name then .error (.duplicateField schema name)
        else .error (.invalidWidth schema name t 0) := by
  have hwidth : (Field.ofType name t i).byteWidth = 0 := by
    rw [Field.ofType, ht]
    rfl
  rw [validate, validateFrom_append]
  refine congrArg _ (funext fun _ => ?_)
  simp only [validateFrom, List.append_nil, List.mem_reverse, hwidth, true_or, if_true]
  rfl

end Schema

namespace SemanticType

/-- **Widths are exact or refused.**  Let no array of a type be empty.  The type has a natural width
exactly if the product of all array lengths and of the innermost element's width fits 32 bits, and
then the width is that product, and a field of that width takes the slots its octets need.
Otherwise it has none, and of a field declared by it validation says that its width is invalid,
unless it refuses a field before it or its name. -/
theorem naturalWidth_exact {t : SemanticType} (ht : ∀ n ∈ t.arrayLengths, n ≠ 0) :
    (t.naturalWidth.isSome ↔ t.exactWidth ≤ UInt32.size - 1) ∧
    (∀ w, t.naturalWidth = some w → w.toNat = t.exactWidth) ∧
    (∀ f : Field, f.semanticType = t → t.naturalWidth = some f.byteWidth →
      f.slotSpan.toNat = (t.exactWidth + 31) / 32) ∧
    (UInt32.size - 1 < t.exactWidth → t.naturalWidth = none ∧
      ∀ (schema : String) (version : UInt32) (before later : List Field) (name : String)
        (i : SlotIndex),
        Schema.validate ⟨schema, version, before ++ .ofType name t i :: later⟩ =
          (Schema.validate ⟨schema, version, before⟩).bind fun _ =>
            if name ∈ before.map Field.name then .error (.duplicateField schema name)
            else .error (.invalidWidth schema name t 0)) := by
  have hfits : t.exactWidth ≤ UInt32.size - 1 ↔ t.exactWidth < UInt32.size :=
    Nat.le_sub_one_iff_lt (by decide)
  refine ⟨?_, fun w hw => ((naturalWidth_eq_some_iff ht).mp hw).2, ?_, fun hwide => ?_⟩
  · rw [naturalWidth_eq_ite ht, hfits]
    split <;> simp [*]
  · rintro f rfl hf
    exact Field.toNat_slotSpan_of_naturalWidth ht hf
  · have hnone : t.naturalWidth = none := by
      rw [naturalWidth_eq_ite ht, if_neg fun h => Nat.not_le.mpr hwide (hfits.mpr h)]
    exact ⟨hnone, fun schema version before later name i =>
      Schema.validate_append_ofType schema version before later hnone name i⟩

/-- Rows of words that fit 32 bits. -/
def wideGap : SemanticType := array (array uint256 65535) 2048

/-- The same rows with one word more in each, one octet too many. -/
def tooWideGap : SemanticType := array (array uint256 65536) 2048

/-- The first gap takes its slots, and the second one is refused behind a flag. -/
theorem naturalWidth_exact_gaps :
    ((∀ n ∈ wideGap.arrayLengths, n ≠ 0) ∧
      (∃ w, wideGap.naturalWidth = some w ∧ w.toNat = 4294901760) ∧
      (Field.ofType "gap" wideGap 4).slotSpan.toNat = 134215680) ∧
    (∀ n ∈ tooWideGap.arrayLengths, n ≠ 0) ∧ tooWideGap.naturalWidth = none ∧
      Schema.validate ⟨"Huge", 1, [.ofType "flag" bool 0, .ofType "gap" tooWideGap 4]⟩ =
        .error (.invalidWidth "Huge" "gap" tooWideGap 0) := by
  have hwide : ∀ n ∈ wideGap.arrayLengths, n ≠ 0 := by decide
  have htooWide : ∀ n ∈ tooWideGap.arrayLengths, n ≠ 0 := by decide
  have hexact : wideGap.exactWidth = 4294901760 := by decide
  obtain ⟨hsome, hwidth, hspan, -⟩ := naturalWidth_exact hwide
  obtain ⟨-, -, -, hrefused⟩ := naturalWidth_exact htooWide
  obtain ⟨w, hw⟩ := Option.isSome_iff_exists.mp (hsome.mpr (by decide))
  obtain ⟨hnone, hinvalid⟩ := hrefused (by decide)
  have hfield : wideGap.naturalWidth = some (Field.ofType "gap" wideGap 4).byteWidth := by
    rw [Field.ofType, hw]
    rfl
  refine ⟨⟨hwide, ⟨w, hw, (hwidth w hw).trans hexact⟩, ?_⟩, htooWide, hnone, ?_⟩
  · rw [hspan _ rfl hfield, hexact]
  · exact hinvalid "Huge" 1 [.ofType "flag" bool 0] [] "gap" 4

end SemanticType

end SlotLedger
