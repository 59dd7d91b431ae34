import SlotLedger.Proofs.Layout.Validation

/-!
# Descriptors and arrays of mappings

A mapping takes one base slot and keeps its entries elsewhere, so it is no element of an array laid
out in line.  A descriptor should therefore have no array of mappings, and an array of such arrays
is one too.  Validation looks at the elements of the outer array alone: of the mappings in arrays it
finds those with one array around them and lets pass those with more.

## Main definitions

* `SemanticType.HoldsMappings`: an array of mappings, through any depth of arrays
* `SemanticType.mappingDepth?`: the number of arrays around a mapping
* `Schema.IsDescriptor`: the rules of a descriptor, with the ban on arrays of mappings at any depth

## Main results

* `SemanticType.holdsMappings_iff`, `SemanticType.isArrayOfMappings_iff`: the ban and the test
* `Schema.validate_eq_ok_iff_mappingDepth`: what validation accepts, and which of it are descriptors
-/

namespace SlotLedger

namespace SemanticType

/-- An array whose elements, through any depth of arrays, are mappings. -/
inductive HoldsMappings : SemanticType → Prop where
  | directly (key value : SemanticType) (length : UInt32) :
    HoldsMappings (array (mapping key value) length)
  | within {element : SemanticType} (length : UInt32) :
    HoldsMappings element → HoldsMappings (array element length)

/-- The number of arrays around a mapping; none where the innermost elements are no mappings. -/
def mappingDepth? : SemanticType → Option Nat
  | mapping _ _ => some 0
  | array element _ => element.mappingDepth?.map (· + 1)
  | _ => none

theorem mappingDepth?_eq_zero_iff {t : SemanticType} :
    t.mappingDepth? = some 0 ↔ t.isMapping = true := by
  cases t <;> simp [mappingDepth?, isMapping]

/-- **The ban** is on every mapping with an array around it. -/
theorem holdsMappings_iff {t : SemanticType} :
    t.HoldsMappings ↔ ∃ d, t.mappingDepth? = some (d + 1) := by
  constructor
  · intro h
    induction h with
    | directly key value length => exact ⟨0, rfl⟩
    | within length _ ih =>
      obtain ⟨d, hd⟩ := ih
      exact ⟨d + 1, by rw [mappingDepth?, hd, Option.map_some]⟩
  · rintro ⟨d, hd⟩
    induction t generalizing d with
    | array element length ih =>
      obtain ⟨inner, hinner, hsucc⟩ := Option.map_eq_some_iff.mp hd
      obtain rfl : inner = d := Nat.succ.inj hsucc
      cases inner with
      | zero =>
        -- No array is left, so the elements are the mappings.
        cases element with
        | mapping key value => exact .directly key value length
        | _ => simp [mappingDepth?] at hinner
      | succ inner => exact .within length (ih inner hinner)
    | _ => simp [mappingDepth?] at hd

/-- **The test** finds the mappings with one array around them. -/
theorem isArrayOfMappings_iff {t : SemanticType} :
    t.isArrayOfMappings = true ↔ t.mappingDepth? = some 1 := by
  cases t with
  | array element length => simp [isArrayOfMappings, mappingDepth?, ← mappingDepth?_eq_zero_iff]
  | _ => simp [isArrayOfMappings, mappingDepth?]

/-- What the test misses are the mappings with two or more arrays around them. -/
theorem not_holdsMappings_iff {t : SemanticType} :
    ¬ t.HoldsMappings ↔ t.mappingDepth? ≠ some 1 ∧ ∀ d ∈ t.mappingDepth?, d ≤ 1 := by
  rw [holdsMappings_iff]
  constructor
  · intro h
    refine ⟨fun hone => h ⟨0, hone⟩, fun d hd => ?_⟩
    cases d with
    | zero => exact Nat.zero_le 1
    | succ d => exact absurd ⟨d, hd⟩ h
  · rintro ⟨hone, hlow⟩ ⟨d, hd⟩
    obtain rfl : d = 0 := Nat.le_zero.mp (Nat.le_of_succ_le_succ (hlow (d + 1) hd))
    exact hone hd

end SemanticType

/-- The width rule of a field, with the test for arrays of mappings as a rule of its own. -/
theorem Field.hasNaturalWidth_iff {f : Field} :
    f.HasNaturalWidth ↔
      (f.byteWidth ≠ 0 ∧ f.semanticType.naturalWidth = some f.byteWidth) ∧
        f.semanticType.mappingDepth? ≠ some 1 := by
  rw [HasNaturalWidth, ← and_assoc, ← Bool.not_eq_true, SemanticType.isArrayOfMappings_iff]

namespace Schema

/-- The rules of a descriptor: distinct names, widths that are natural and not zero, no arrays of
mappings, and no field before the end of the field before it. -/
structure IsDescriptor (s : Schema) : Prop where
  names : (s.fields.map Field.name).Nodup
  widths : ∀ f ∈ s.fields, f.byteWidth ≠ 0 ∧ f.semanticType.naturalWidth = some f.byteWidth
  elements : ∀ f ∈ s.fields, ¬ f.semanticType.HoldsMappings
  ordered : s.fields.IsChain Field.Precedes

/-- **What validation accepts**: distinct names, natural widths, fields in order, and no mapping
with one array around it.  The descriptors are what it accepts and has no mapping with more arrays
around it either. -/
theorem validate_eq_ok_iff_mappingDepth (s : Schema) :
    (s.validate = .ok () ↔
        (s.fields.map Field.name).Nodup ∧
          (∀ f ∈ s.fields, f.byteWidth ≠ 0 ∧ f.semanticType.naturalWidth = some f.byteWidth) ∧
          (∀ f ∈ s.fields, f.semanticType.mappingDepth? ≠ some 1) ∧
          s.fields.IsChain Field.Precedes) ∧
      (s.IsDescriptor ↔
        s.validate = .ok () ∧ ∀ f ∈ s.fields, ∀ d ∈ f.semanticType.mappingDepth?, d ≤ 1) := by
  have haccepted : s.validate = .ok () ↔
      (s.fields.map Field.name).Nodup ∧
        (∀ f ∈ s.fields, f.byteWidth ≠ 0 ∧ f.semanticType.naturalWidth = some f.byteWidth) ∧
        (∀ f ∈ s.fields, f.semanticType.mappingDepth? ≠ some 1) ∧
        s.fields.IsChain Field.Precedes := by
    rw [validate_eq_ok_iff, ← and_assoc (b := ∀ f ∈ s.fields, f.semanticType.mappingDepth? ≠ _),
      ← forall₂_and]
    simp only [Field.hasNaturalWidth_iff]
  refine ⟨haccepted, ?_⟩
  constructor
  · rintro ⟨hnames, hwidths, helements, hordered⟩
    have hdepth := fun f hf => SemanticType.not_holdsMappings_iff.mp (helements f hf)
    exact ⟨haccepted.mpr ⟨hnames, hwidths, fun f hf => (hdepth f hf).1, hordered⟩,
      fun f hf => (hdepth f hf).2⟩
  · rintro ⟨hvalid, hlow⟩
    obtain ⟨hnames, hwidths, hone, hordered⟩ := haccepted.mp hvalid
    exact ⟨hnames, hwidths,
      fun f hf => SemanticType.not_holdsMappings_iff.mpr ⟨hone f hf, hlow f hf⟩, hordered⟩

/-- A field of three arrays of two mappings each. -/
def nestedMappings : Schema :=
  ⟨"Nested", 1, [.ofType "books" (.array (.array (.mapping .address .uint256) 2) 3) 0]⟩

/-- Validation accepts an array of arrays of mappings, which no descriptor has. -/
theorem not_isDescriptor_nestedMappings :
    nestedMappings.validate = .ok () ∧ ¬ nestedMappings.IsDescriptor := by
  refine ⟨rfl, fun h => ?_⟩
  exact h.elements _ (List.mem_singleton_self _) (.within 3 (.directly .address .uint256 2))

end Schema

end SlotLedger
