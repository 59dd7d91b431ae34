import Mathlib.Data.List.Chain
import SlotLedger.Layout.Compatibility
import SlotLedger.Proofs.Layout.Validation

/-!
# Layouts that may take over

`Schema.checkUpgrade` applies three rules in order.  An allowed layout keeps every old field as it
is, starts every added field at or after the end of the old layout, and has its own fields in
order; an old layout without fields is taken over by any other.

## Main definitions

* `Schema.Keeps`: the three rules, said without the verdict

## Main results

* `Schema.checkUpgrade_cases`, `Schema.isAllowed_checkUpgrade_iff`: what the check allows
* `Schema.appendedFields_checkUpgrade`: what an allowed layout adds
* `Schema.precedes_of_mem_appendedFields`: added fields start at or after every end of an old field
-/

namespace SlotLedger

namespace Schema

theorem mem_of_field?_eq_some {s : Schema} {name : String} {f : Field}
    (hf : s.field? name = some f) : f ∈ s.fields ∧ f.name = name :=
  ⟨List.mem_of_find?_eq_some hf, by simpa using List.find?_some hf⟩

/-! ## The three rules -/

/-- A field is carried over intact if the new schema's field of its name is the field itself. -/
theorem fieldChange_eq_none_iff {new : Schema} {f : Field} :
    fieldChange new f = none ↔ new.field? f.name = some f := by
  unfold fieldChange
  cases hg : new.field? f.name with
  | none => cases new.fields.find? (·.sameShape f) <;> simp
  | some g =>
    have hname : g.name = f.name := (mem_of_field?_eq_some hg).2
    obtain ⟨name, semanticType, slotIndex, byteWidth⟩ := f
    obtain ⟨name', semanticType', slotIndex', byteWidth'⟩ := g
    subst hname
    simp only [Option.some.injEq, Field.mk.injEq, true_and]
    split
    · simp_all
    · split
      · split <;> simp_all
      · split <;> simp_all

theorem firstChange_eq_none_iff {new : Schema} {fields : List Field} :
    firstChange new fields = none ↔ ∀ f ∈ fields, new.field? f.name = some f := by
  induction fields with
  | nil => simp [firstChange]
  | cons f rest ih =>
    rw [firstChange, List.forall_mem_cons, ← ih, ← fieldChange_eq_none_iff]
    cases fieldChange new f <;> simp

theorem firstOverlap_eq_none_iff {fields : List Field} :
    firstOverlap fields = none ↔ fields.IsChain Field.Precedes := by
  induction fields with
  | nil => simp [firstOverlap]
  | cons f rest ih =>
    cases rest with
    | nil => simp [firstOverlap]
    | cons g rest =>
      rw [firstOverlap, List.isChain_cons_cons, ← ih, Field.Precedes]
      split
      · rename_i hlow
        exact iff_of_false (by simp) fun h => absurd h.1 (UInt64.not_le.mpr hlow)
      · rename_i hhigh
        exact (and_iff_right (UInt64.not_lt.mp hhigh)).symm

/-! ## The end of a layout -/

theorem foldl_slotEnd_le_iff {fields : List Field} {high i : SlotIndex} :
    fields.foldl (fun high f => if high < f.slotEnd then f.slotEnd else high) high ≤ i ↔
      high ≤ i ∧ ∀ f ∈ fields, f.slotEnd ≤ i := by
  induction fields generalizing high with
  | nil => simp
  | cons f rest ih =>
    have hstep : (if high < f.slotEnd then f.slotEnd else high) ≤ i ↔
        high ≤ i ∧ f.slotEnd ≤ i := by
      split
      · rename_i hlt
        exact ⟨fun h => ⟨UInt64.le_trans (UInt64.le_of_lt hlt) h, h⟩, And.right⟩
      · rename_i hle
        exact ⟨fun h => ⟨h, UInt64.le_trans (UInt64.not_lt.mp hle) h⟩, And.left⟩
    rw [List.foldl_cons, ih, hstep, List.forall_mem_cons, and_assoc]

/-- The end of a layout is the least position after which no field ends. -/
theorem slotEnd_le_iff {s : Schema} {i : SlotIndex} :
    s.slotEnd ≤ i ↔ ∀ f ∈ s.fields, f.slotEnd ≤ i :=
  foldl_slotEnd_le_iff.trans (and_iff_right UInt64.zero_le)

/-- No field ends after its layout. -/
theorem slotEnd_le {s : Schema} {f : Field} (hf : f ∈ s.fields) : f.slotEnd ≤ s.slotEnd :=
  slotEnd_le_iff.mp (UInt64.le_refl _) f hf

/-! ## The verdict -/

/-- `new` keeps every field of `old`, adds fields at or after its end, and has its own fields in
order; a layout without fields is kept by any other. -/
def Keeps (old new : Schema) : Prop :=
  old.fields = [] ∨
    (∀ f ∈ old.fields, new.field? f.name = some f) ∧
      (∀ f ∈ appended old new, old.slotEnd ≤ f.slotIndex) ∧ new.fields.IsChain Field.Precedes

/-- The verdict is one of two: what is kept may be taken over, adding the fields of new names, and
all else is rejected. -/
theorem checkUpgrade_cases (old new : Schema) :
    (old.Keeps new ∧ old.checkUpgrade new = .allow (appended old new)) ∨
      (¬ old.Keeps new ∧ (old.checkUpgrade new).isAllowed = false) := by
  rw [Keeps, checkUpgrade, ← firstChange_eq_none_iff, ← firstOverlap_eq_none_iff]
  split
  · rename_i hempty
    have hall : ∀ f ∈ new.fields, (old.field? f.name).isNone = true := by
      intro f _
      simp [field?, List.isEmpty_iff.mp hempty]
    have happended : appended old new = new.fields := List.filter_eq_self.mpr hall
    exact .inl ⟨.inl (List.isEmpty_iff.mp hempty), by rw [happended]⟩
  · rename_i hfields
    have hne : old.fields ≠ [] := fun h => hfields (List.isEmpty_iff.mpr h)
    have hfind : (appended old new).find? (·.slotIndex < old.slotEnd) = none ↔
        ∀ f ∈ appended old new, old.slotEnd ≤ f.slotIndex := by
      simp [List.find?_eq_none]
    rw [← hfind]
    simp only [hne, false_or]
    cases firstChange new old.fields with
    | some change => exact .inr ⟨by simp, rfl⟩
    | none =>
      cases (appended old new).find? (·.slotIndex < old.slotEnd) with
      | some f => exact .inr ⟨by simp, rfl⟩
      | none =>
        cases firstOverlap new.fields with
        | some overlap => exact .inr ⟨by simp, rfl⟩
        | none => exact .inl ⟨⟨rfl, rfl, rfl⟩, rfl⟩

/-- **What the check allows.** -/
theorem isAllowed_checkUpgrade_iff {old new : Schema} :
    (old.checkUpgrade new).isAllowed = true ↔ old.Keeps new := by
  rcases checkUpgrade_cases old new with ⟨hkeeps, hverdict⟩ | ⟨hkeeps, hverdict⟩
  · rw [hverdict]
    exact iff_of_true rfl hkeeps
  · exact iff_of_false (by simp [hverdict]) hkeeps

/-- An allowed layout adds the fields whose names are new. -/
theorem appendedFields_checkUpgrade {old new : Schema}
    (hallowed : (old.checkUpgrade new).isAllowed = true) :
    (old.checkUpgrade new).appendedFields = appended old new := by
  rcases checkUpgrade_cases old new with ⟨-, hverdict⟩ | ⟨-, hverdict⟩
  · rw [hverdict]
    rfl
  · rw [hverdict] at hallowed
    cases hallowed

section Allowed

variable {old new : Schema} (hallowed : (old.checkUpgrade new).isAllowed = true)

include hallowed

/-- Every old field is carried over as it is. -/
theorem field?_of_isAllowed {f : Field} (hf : f ∈ old.fields) : new.field? f.name = some f := by
  rcases isAllowed_checkUpgrade_iff.mp hallowed with hempty | ⟨hkept, -, -⟩
  · rw [hempty] at hf
    cases hf
  · exact hkept f hf

/-- Added fields start at or after every end of an old field. -/
theorem precedes_of_mem_appendedFields {f g : Field} (hf : f ∈ old.fields)
    (hg : g ∈ (old.checkUpgrade new).appendedFields) : f.Precedes g := by
  rw [appendedFields_checkUpgrade hallowed] at hg
  rcases isAllowed_checkUpgrade_iff.mp hallowed with hempty | ⟨-, hafter, -⟩
  · rw [hempty] at hf
    cases hf
  · exact UInt64.le_trans (slotEnd_le hf) (hafter g hg)

end Allowed

end Schema

end SlotLedger
