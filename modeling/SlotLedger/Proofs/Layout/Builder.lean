import Mathlib.Algebra.Ring.Nat
import SlotLedger.Proofs.Layout.Validation

/-!
# Layouts that a builder lays out

A builder takes steps: it declares a field at the next free position, or leaves slots unused.  What
it lays out is in order whatever the steps are, also where positions are held back at the greatest
one and where a type has no width: such a field takes a slot like any other.  So a layout that was
built is refused for its names and its types alone.

## Main definitions

* `BuilderStep`, `SchemaBuilder.follow`, `Schema.built`: the layout of a list of steps
* `Schema.laid`, `Schema.laidEnd`: its fields, and the next free position after them

## Main results

* `Schema.fields_built`, `Schema.map_declaration_laid`: what a built layout has
* `Schema.isChain_laid`: its fields are in order
* `Schema.toNat_laidEnd_skips`: where slots that are skipped end
* `Schema.fields_and_validate_built`: where its fields start, and when validation accepts it
-/

namespace SlotLedger

/-- What is declared of a field: its name and its type. -/
abbrev Declaration := String × SemanticType

namespace SlotIndex

theorem le_advance (i : SlotIndex) (count : UInt64) : i ≤ i.advance count := by
  have hi := i.toNat_lt
  rw [UInt64.le_iff_toNat_le, toNat_advance]
  simp only [UInt64.size]
  omega

end SlotIndex

namespace Field

/-- What is declared of a field. -/
def declaration (f : Field) : Declaration := (f.name, f.semanticType)

/-- The width of a field that was declared by its type is right if the type has one that is not
zero, and its elements are no mappings. -/
theorem hasNaturalWidth_ofType_iff {name : String} {t : SemanticType} {i : SlotIndex} :
    (ofType name t i).HasNaturalWidth ↔
      (∃ w, t.naturalWidth = some w ∧ w ≠ 0) ∧
        ∀ key value length, t ≠ .array (.mapping key value) length := by
  have helements : t.isArrayOfMappings = false ↔
      ∀ key value length, t ≠ .array (.mapping key value) length := by
    cases t with
    | array element length =>
      cases element <;> simp [SemanticType.isArrayOfMappings, SemanticType.isMapping]
    | _ => simp [SemanticType.isArrayOfMappings]
  rw [HasNaturalWidth, ← and_assoc]
  refine and_congr ?_ helements
  change t.naturalWidth.getD 0 ≠ 0 ∧ t.naturalWidth = some (t.naturalWidth.getD 0) ↔ _
  cases t.naturalWidth with
  | none => simp
  | some w => simp

end Field

/-- A step of laying out fields. -/
inductive BuilderStep where
  /-- Declare a field at the next free position. -/
  | field (declared : Declaration)
  /-- Leave slots unused. -/
  | skip (slots : UInt64)
deriving DecidableEq

/-- What a step declares, if it declares a field. -/
def BuilderStep.declaration? : BuilderStep → Option Declaration
  | .field declared => some declared
  | .skip _ => none

namespace SchemaBuilder

/-- A builder after a step. -/
def step (b : SchemaBuilder) : BuilderStep → SchemaBuilder
  | .field declared => b.field declared.1 declared.2
  | .skip slots => b.skip slots

/-- A builder after steps. -/
def follow (b : SchemaBuilder) (steps : List BuilderStep) : SchemaBuilder := steps.foldl step b

end SchemaBuilder

namespace Schema

/-- The layout of a list of steps. -/
def built (name : String) (version : UInt32) (steps : List BuilderStep) : Schema :=
  ((SchemaBuilder.start name version).follow steps).build

/-- The fields that steps declare from a position on. -/
def laid (free : SlotIndex) : List BuilderStep → List Field
  | [] => []
  | .field d :: rest => .ofType d.1 d.2 free :: laid (Field.ofType d.1 d.2 free).slotEnd rest
  | .skip slots :: rest => laid (free.advance slots) rest

/-- The next free position after steps. -/
def laidEnd (free : SlotIndex) : List BuilderStep → SlotIndex
  | [] => free
  | .field d :: rest => laidEnd (Field.ofType d.1 d.2 free).slotEnd rest
  | .skip slots :: rest => laidEnd (free.advance slots) rest

variable {free : SlotIndex} {steps first later : List BuilderStep} {f : Field}

theorem fields_build_follow (b : SchemaBuilder) (steps : List BuilderStep) :
    (b.follow steps).build.fields = b.declared.reverse ++ laid b.nextSlot steps := by
  induction steps generalizing b with
  | nil => exact (List.append_nil _).symm
  | cons s rest ih =>
    have hstep : b.follow (s :: rest) = (b.step s).follow rest := rfl
    rw [hstep, ih]
    cases s with
    | field d => simp [SchemaBuilder.step, SchemaBuilder.field, laid]
    | skip slots => rfl

/-- A built layout has the declared fields from slot zero on. -/
theorem fields_built (name : String) (version : UInt32) (steps : List BuilderStep) :
    (built name version steps).fields = laid 0 steps :=
  fields_build_follow (.start name version) steps

theorem laid_append (free : SlotIndex) (first later : List BuilderStep) :
    laid free (first ++ later) = laid free first ++ laid (laidEnd free first) later := by
  induction first generalizing free with
  | nil => rfl
  | cons s rest ih =>
    cases s with
    | field d => exact congrArg (_ :: ·) (ih _)
    | skip slots => exact ih _

theorem laidEnd_append (free : SlotIndex) (first later : List BuilderStep) :
    laidEnd free (first ++ later) = laidEnd (laidEnd free first) later := by
  induction first generalizing free with
  | nil => rfl
  | cons s rest ih =>
    cases s with
    | field d => exact ih _
    | skip slots => exact ih _

/-- A layout has the fields that were declared, in the order of declaration. -/
theorem map_declaration_laid (free : SlotIndex) (steps : List BuilderStep) :
    (laid free steps).map Field.declaration = steps.filterMap BuilderStep.declaration? := by
  induction steps generalizing free with
  | nil => rfl
  | cons s rest ih =>
    cases s with
    | field d => exact congrArg (d :: ·) (ih _)
    | skip slots => exact ih _

theorem length_laid (free : SlotIndex) (steps : List BuilderStep) :
    (laid free steps).length = (steps.filterMap BuilderStep.declaration?).length := by
  rw [← map_declaration_laid free, List.length_map]

theorem map_name_laid (free : SlotIndex) (steps : List BuilderStep) :
    (laid free steps).map Field.name =
      (steps.filterMap BuilderStep.declaration?).map Prod.fst := by
  rw [← map_declaration_laid free, List.map_map]
  rfl

theorem eq_ofType_of_mem_laid (hf : f ∈ laid free steps) :
    f = .ofType f.name f.semanticType f.slotIndex := by
  induction steps generalizing free with
  | nil => cases hf
  | cons s rest ih =>
    cases s with
    | field d =>
      rcases List.mem_cons.mp hf with rfl | hrest
      · rfl
      · exact ih hrest
    | skip slots => exact ih hf

/-- Whether the widths of the fields are right is up to the declared types. -/
theorem forall_hasNaturalWidth_laid_iff (free : SlotIndex) (steps : List BuilderStep) :
    (∀ f ∈ laid free steps, f.HasNaturalWidth) ↔
      ∀ d ∈ steps.filterMap BuilderStep.declaration?,
        (∃ w, d.2.naturalWidth = some w ∧ w ≠ 0) ∧
          ∀ key value length, d.2 ≠ .array (.mapping key value) length := by
  rw [← map_declaration_laid free, List.forall_mem_map]
  refine forall₂_congr fun f hf => ?_
  rw [eq_ofType_of_mem_laid hf]
  exact Field.hasNaturalWidth_ofType_iff

/-! ## Positions -/

theorem le_slotIndex_of_head?_laid (hf : f ∈ (laid free steps).head?) : free ≤ f.slotIndex := by
  induction steps generalizing free with
  | nil => cases hf
  | cons s rest ih =>
    cases s with
    | field d =>
      cases hf
      exact UInt64.le_refl _
    | skip slots => exact UInt64.le_trans (free.le_advance slots) (ih hf)

/-- **No field starts before the end of the field before it**, whatever is declared and skipped. -/
theorem isChain_laid (free : SlotIndex) (steps : List BuilderStep) :
    (laid free steps).IsChain Field.Precedes := by
  induction steps generalizing free with
  | nil => exact .nil
  | cons s rest ih =>
    cases s with
    | field d =>
      rw [laid, List.isChain_cons]
      exact ⟨fun g hg => le_slotIndex_of_head?_laid hg, ih _⟩
    | skip slots => exact ih _

/-- Slots that are skipped add up, as far as there are positions. -/
theorem toNat_laidEnd_skips (free : SlotIndex) (skips : List UInt64) :
    (laidEnd free (skips.map .skip)).toNat =
      min (free.toNat + (skips.map UInt64.toNat).sum) (UInt64.size - 1) := by
  induction skips generalizing free with
  | nil =>
    have hfree := free.toNat_lt
    simp only [List.map_nil, laidEnd, List.sum_nil, UInt64.size]
    omega
  | cons slots rest ih =>
    rw [List.map_cons, laidEnd, ih, SlotIndex.toNat_advance, List.map_cons, List.sum_cons]
    omega

theorem filterMap_declaration?_skips (skips : List UInt64) :
    (skips.map BuilderStep.skip).filterMap BuilderStep.declaration? = [] := by
  simp [List.filterMap_map, Function.comp_def, BuilderStep.declaration?]

/-- The field that is declared at some place. -/
theorem getElem?_laid (free : SlotIndex) (first : List BuilderStep) (d : Declaration)
    (later : List BuilderStep) :
    (laid free (first ++ .field d :: later))[(first.filterMap BuilderStep.declaration?).length]? =
      some (.ofType d.1 d.2 (laidEnd free first)) := by
  rw [← length_laid free, laid_append, List.getElem?_append_right (Nat.le_refl _), Nat.sub_self]
  rfl

/-- Slots that are skipped leave no place between the fields before and after them. -/
theorem getElem?_laid_next (free : SlotIndex) (first : List BuilderStep) (d : Declaration)
    (skips : List UInt64) (e : Declaration) (later : List BuilderStep) :
    (laid free (first ++ .field d :: (skips.map .skip ++ .field e :: later)))[
        (first.filterMap BuilderStep.declaration?).length + 1]? =
      some (.ofType e.1 e.2 (laidEnd free (first ++ .field d :: skips.map .skip))) := by
  have hplace : ((first ++ BuilderStep.field d :: skips.map .skip).filterMap
      BuilderStep.declaration?).length =
        (first.filterMap BuilderStep.declaration?).length + 1 := by
    rw [List.filterMap_append, List.length_append,
      List.filterMap_cons_some (f := BuilderStep.declaration?) rfl, filterMap_declaration?_skips]
    rfl
  have hnext := getElem?_laid free (first ++ .field d :: skips.map .skip) e later
  rwa [hplace, List.append_assoc, List.cons_append] at hnext

/-- **What a builder lays out.**  The fields are the declared ones in order, each with the width of
its type or without any.  The first one starts behind the slots that were skipped before it, and
every other one behind the end of the field before it and the slots that were skipped between the
two, no position being greater than the greatest one.  Validation never finds a field out of order,
and accepts the layout exactly if the names are distinct and every type has a width that is not zero
and is no array of mappings. -/
theorem fields_and_validate_built (name : String) (version : UInt32) (steps : List BuilderStep) :
    let s := built name version steps
    let declared := steps.filterMap BuilderStep.declaration?
    s.fields.map Field.declaration = declared ∧
      (∀ f ∈ s.fields, f = .ofType f.name f.semanticType f.slotIndex) ∧
      (∀ (skips : List UInt64) (d : Declaration) (later : List BuilderStep),
        steps = skips.map .skip ++ .field d :: later →
        ∃ f, s.fields[0]? = some f ∧ f.declaration = d ∧
          f.slotIndex.toNat = min (skips.map UInt64.toNat).sum (UInt64.size - 1)) ∧
      (∀ (first : List BuilderStep) (d : Declaration) (skips : List UInt64) (e : Declaration)
          (later : List BuilderStep),
        steps = first ++ .field d :: (skips.map .skip ++ .field e :: later) →
        let i := (first.filterMap BuilderStep.declaration?).length
        ∃ f g, s.fields[i]? = some f ∧ f.declaration = d ∧
          s.fields[i + 1]? = some g ∧ g.declaration = e ∧
          g.slotIndex.toNat =
            min (f.slotEnd.toNat + (skips.map UInt64.toNat).sum) (UInt64.size - 1)) ∧
      (∀ schema field slot, s.validate ≠ .error (.misordered schema field slot)) ∧
      (s.validate = .ok () ↔
        (declared.map Prod.fst).Nodup ∧
          ∀ d ∈ declared, (∃ w, d.2.naturalWidth = some w ∧ w ≠ 0) ∧
            ∀ key value length, d.2 ≠ .array (.mapping key value) length) := by
  intro s declared
  have hfields : s.fields = laid 0 steps := fields_built name version steps
  have hdeclared : s.fields.map Field.declaration = declared := by
    rw [hfields, map_declaration_laid]
  have hnatural : ∀ f ∈ s.fields, f = .ofType f.name f.semanticType f.slotIndex := by
    rw [hfields]
    exact fun f hf => eq_ofType_of_mem_laid hf
  have hordered : s.fields.IsChain Field.Precedes := hfields ▸ isChain_laid 0 steps
  refine ⟨hdeclared, hnatural, ?_, ?_, fun _ _ _ => validate_ne_misordered hordered, ?_⟩
  · rintro skips d later rfl
    have hfirst := getElem?_laid 0 (skips.map .skip) d later
    rw [filterMap_declaration?_skips, ← hfields] at hfirst
    refine ⟨_, hfirst, rfl, ?_⟩
    change (laidEnd 0 (skips.map .skip)).toNat = _
    rw [toNat_laidEnd_skips, UInt64.toNat_zero, Nat.zero_add]
  · rintro first d skips e later rfl
    have hfield := getElem?_laid 0 first d (skips.map .skip ++ .field e :: later)
    have hnext := getElem?_laid_next 0 first d skips e later
    rw [← hfields] at hfield hnext
    refine ⟨_, _, hfield, rfl, hnext, rfl, ?_⟩
    change (laidEnd 0 (first ++ .field d :: skips.map .skip)).toNat = _
    rw [laidEnd_append, laidEnd, toNat_laidEnd_skips]
  · rw [validate_eq_ok_iff, hfields, map_name_laid, forall_hasNaturalWidth_laid_iff]
    exact and_congr_right fun _ => and_iff_left (isChain_laid 0 steps)

end Schema

end SlotLedger
