import Mathlib.Data.List.Chain
import Mathlib.Data.List.Nodup
import SlotLedger.Layout.Schema

/-!
# Validated schemas

`Schema.validate` goes over the fields once and compares each field with its predecessor alone.
What it accepts is said here without the walk: the names are distinct, every field has the natural
width of its type, and each field starts at or after the end of the one before it.

## Main definitions

* `Field.HasNaturalWidth`: the width rule of one field
* `Field.Precedes`: one field starts at or after the end of another

## Main results

* `Field.toNat_slotSpan`, `Field.toNat_slotEnd`: spans and ends as numbers
* `Schema.validate_eq_ok_iff`: what validation accepts
* `Schema.pairwise_precedes`: in a validated schema every earlier field precedes every later one
-/

namespace SlotLedger

namespace Field

/-- The width is that of the type, and the type is laid out in line at all. -/
def HasNaturalWidth (f : Field) : Prop :=
  f.byteWidth ≠ 0 ∧ f.semanticType.naturalWidth = some f.byteWidth ∧
    f.semanticType.isArrayOfMappings = false

/-- `g` starts at or after the end of `f`. -/
def Precedes (f g : Field) : Prop := f.slotEnd ≤ g.slotIndex

theorem toNat_slotSpan (f : Field) :
    f.slotSpan.toNat = max ((f.byteWidth.toNat + 31) / 32) 1 := by
  have hw := f.byteWidth.toNat_lt
  have hword : wordWidth.toNat = 32 := rfl
  rw [slotSpan, hword, UInt64.toNat_ofNat', Nat.mod_eq_of_lt (by omega)]
  rfl

theorem slotSpan_pos (f : Field) : 0 < f.slotSpan.toNat := by
  rw [toNat_slotSpan]
  omega

/-- The end of a field, held back at the greatest position. -/
theorem toNat_slotEnd (f : Field) :
    f.slotEnd.toNat = min (f.slotIndex.toNat + f.slotSpan.toNat) (UInt64.size - 1) :=
  SlotIndex.toNat_advance f.slotIndex f.slotSpan

theorem slotIndex_le_slotEnd (f : Field) : f.slotIndex ≤ f.slotEnd := by
  have hi := f.slotIndex.toNat_lt
  rw [UInt64.le_iff_toNat_le, toNat_slotEnd]
  simp only [UInt64.size]
  omega

theorem Precedes.trans {f g h : Field} (hfg : f.Precedes g) (hgh : g.Precedes h) :
    f.Precedes h :=
  UInt64.le_trans hfg (UInt64.le_trans g.slotIndex_le_slotEnd hgh)

instance : IsTrans Field Precedes := ⟨fun _ _ _ => Precedes.trans⟩

end Field

namespace Schema

/-- One step of the walk. -/
theorem validateFrom_cons_eq_ok_iff {schema : String} {seen : List String}
    {free : Option SlotIndex} {f : Field} {rest : List Field} :
    validateFrom schema seen free (f :: rest) = .ok () ↔
      f.name ∉ seen ∧ f.HasNaturalWidth ∧ (∀ e ∈ free, e ≤ f.slotIndex) ∧
        validateFrom schema (f.name :: seen) (some f.slotEnd) rest = .ok () := by
  have hwidth : ¬ (f.byteWidth = 0 ∨ f.semanticType.naturalWidth ≠ some f.byteWidth ∨
      f.semanticType.isArrayOfMappings) ↔ f.HasNaturalWidth := by
    simp [Field.HasNaturalWidth]
  have hfree : ¬ free.any (f.slotIndex < ·) = true ↔ ∀ e ∈ free, e ≤ f.slotIndex := by
    cases free <;> simp
  rw [validateFrom, ← hwidth, ← hfree]
  split
  · simp [*]
  · split
    · simp [*]
    · split <;> simp [*]

/-- What a walk from one field on accepts: besides the rules among the fields themselves, no name
was seen before and the first field starts at or after the end of its predecessor. -/
theorem validateFrom_eq_ok_iff {schema : String} {seen : List String} {free : Option SlotIndex}
    {fields : List Field} :
    validateFrom schema seen free fields = .ok () ↔
      (fields.map Field.name).Nodup ∧ (∀ f ∈ fields, f.name ∉ seen) ∧
        (∀ f ∈ fields, f.HasNaturalWidth) ∧ (∀ e ∈ free, ∀ f ∈ fields.head?, e ≤ f.slotIndex) ∧
        fields.IsChain Field.Precedes := by
  induction fields generalizing seen free with
  | nil => simp [validateFrom]
  | cons f rest ih =>
    rw [validateFrom_cons_eq_ok_iff, ih]
    simp only [List.map_cons, List.nodup_cons, List.mem_map, List.mem_cons, not_or,
      List.head?_cons, Option.mem_some_iff, List.isChain_cons, Field.Precedes]
    grind

/-- **What validation accepts**: distinct names, natural widths, and no field before the end of its
predecessor. -/
theorem validate_eq_ok_iff {s : Schema} :
    s.validate = .ok () ↔
      (s.fields.map Field.name).Nodup ∧ (∀ f ∈ s.fields, f.HasNaturalWidth) ∧
        s.fields.IsChain Field.Precedes := by
  rw [validate, validateFrom_eq_ok_iff]
  simp

/-- A walk over more fields goes on behind the first of them. -/
theorem validateFrom_append (schema : String) (seen : List String) (free : Option SlotIndex)
    (first later : List Field) :
    validateFrom schema seen free (first ++ later) =
      (validateFrom schema seen free first).bind fun _ =>
        validateFrom schema ((first.map Field.name).reverse ++ seen)
          ((first.getLast?.map Field.slotEnd).or free) later := by
  induction first generalizing seen free with
  | nil => rfl
  | cons f rest ih =>
    have hfree : (rest.getLast?.map Field.slotEnd).or (some f.slotEnd) =
        (((f :: rest).getLast?).map Field.slotEnd).or free := by
      rw [List.getLast?_cons]
      cases rest.getLast? <;> rfl
    have hseen : (rest.map Field.name).reverse ++ f.name :: seen =
        ((f :: rest).map Field.name).reverse ++ seen := by
      simp
    rw [List.cons_append, validateFrom, validateFrom]
    split
    · rfl
    · split
      · rfl
      · split
        · rfl
        · rw [ih, hseen, hfree]

/-- Fields in order are never refused for their order. -/
theorem validateFrom_ne_misordered {schema schema' name : String} {slot : SlotIndex}
    {seen : List String} {free : Option SlotIndex} {fields : List Field}
    (hfree : ∀ e ∈ free, ∀ f ∈ fields.head?, e ≤ f.slotIndex)
    (hordered : fields.IsChain Field.Precedes) :
    validateFrom schema seen free fields ≠ .error (.misordered schema' name slot) := by
  induction fields generalizing seen free with
  | nil => nofun
  | cons f rest ih =>
    obtain ⟨hnext, hrest⟩ := List.isChain_cons.mp hordered
    have hplace : ¬ free.any (f.slotIndex < ·) = true := by
      cases free with
      | none => simp
      | some e => simpa using hfree e rfl f rfl
    rw [validateFrom, if_neg hplace]
    split
    · nofun
    · split
      · nofun
      · refine ih (fun e he g hg => ?_) hrest
        obtain rfl := Option.some.inj he
        exact hnext g hg

theorem validate_ne_misordered {s : Schema} (hordered : s.fields.IsChain Field.Precedes)
    {schema name : String} {slot : SlotIndex} :
    s.validate ≠ .error (.misordered schema name slot) :=
  validateFrom_ne_misordered nofun hordered

/-- No field occurs twice in a validated schema. -/
theorem nodup_fields {s : Schema} (hs : s.validate = .ok ()) : s.fields.Nodup :=
  List.Nodup.of_map Field.name (validate_eq_ok_iff.mp hs).1

/-- In a validated schema every earlier field precedes every later one. -/
theorem pairwise_precedes {s : Schema} (hs : s.validate = .ok ()) :
    s.fields.Pairwise Field.Precedes :=
  List.isChain_iff_pairwise.mp (validate_eq_ok_iff.mp hs).2.2

end Schema

end SlotLedger
