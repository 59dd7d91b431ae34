import Mathlib.Data.List.Nodup
import Mathlib.Data.List.Perm.Basic
import SlotLedger.Proofs.Layout.Takeover

/-!
# One layout after another

Storage passes from layout to layout, so what counts in the end is not one verdict but their
sequence.  The check allows a validated layout for itself, and it allows in one step what it allows
in two.  Fields are looked up by name, and a layout that was not validated may have several of one
name; the first of them is the one that is kept, and in a layout in order the others start behind
it.

## Main results

* `Schema.Keeps.trans`: what is kept in two steps is kept in one
* `Schema.checkUpgrade_self`: a validated layout takes over from itself and adds nothing
* `Schema.Keeps.mem_fields`: no field is lost, so layouts that keep each other have the same fields
* `Schema.fields_perm`: a validated layout that takes over has the old fields and the added ones
-/

namespace SlotLedger.Schema

variable {old new s : Schema} {f : Field}

/-! ## Look-up -/

/-- Where names are distinct, every field is found by its name. -/
theorem field?_of_mem_of_nodup (hnames : (s.fields.map Field.name).Nodup) (hf : f ∈ s.fields) :
    s.field? f.name = some f := by
  have hfound : (s.field? f.name).isSome = true := List.find?_isSome.mpr ⟨f, hf, by simp⟩
  obtain ⟨g, hg⟩ := Option.isSome_iff_exists.mp hfound
  obtain ⟨hmem, hname⟩ := mem_of_field?_eq_some hg
  rw [hg, List.inj_on_of_nodup_map hnames hmem hf hname]

/-- In a validated layout every field is found by its name. -/
theorem field?_of_mem (hs : s.validate = .ok ()) (hf : f ∈ s.fields) :
    s.field? f.name = some f :=
  field?_of_mem_of_nodup (validate_eq_ok_iff.mp hs).1 hf

/-- In a layout in order no field starts before the first one of its name. -/
theorem slotIndex_le_of_field? {g : Field} (hs : s.fields.IsChain Field.Precedes)
    (hg : s.field? f.name = some g) (hf : f ∈ s.fields) : g.slotIndex ≤ f.slotIndex := by
  obtain ⟨-, before, after, hfields, hbefore⟩ := List.find?_eq_some_iff_append.mp hg
  rw [hfields] at hf hs
  have hlater := (List.pairwise_append.mp (List.isChain_iff_pairwise.mp hs)).2.1
  rcases List.mem_append.mp hf with hf | hf
  · -- A field of the name before the first one.
    exact absurd (hbefore f hf) (by simp)
  · rcases List.mem_cons.mp hf with rfl | hf
    · exact UInt64.le_refl _
    · have hprecedes := (List.pairwise_cons.mp hlater).1 f hf
      exact UInt64.le_trans g.slotIndex_le_slotEnd hprecedes

/-! ## The order of layouts -/

theorem mem_appended_iff : f ∈ appended old new ↔ f ∈ new.fields ∧ old.field? f.name = none := by
  rw [appended, List.mem_filter, Option.isNone_iff_eq_none]

theorem appended_self (s : Schema) : appended s s = [] := by
  refine List.filter_eq_nil_iff.mpr fun f hf hnone => ?_
  have hfound := List.find?_eq_none.mp (Option.isNone_iff_eq_none.mp hnone) f hf
  simp at hfound

/-- No field of the old layout is lost. -/
theorem Keeps.mem_fields (h : old.Keeps new) (hf : f ∈ old.fields) : f ∈ new.fields :=
  (mem_of_field?_eq_some (field?_of_isAllowed (isAllowed_checkUpgrade_iff.mpr h) hf)).1

/-- A validated layout keeps itself. -/
theorem keeps_self (hs : s.validate = .ok ()) : s.Keeps s := by
  refine .inr ⟨fun f hf => field?_of_mem hs hf, ?_, (validate_eq_ok_iff.mp hs).2.2⟩
  rw [appended_self]
  exact nofun

/-- **A validated layout takes over from itself**, and adds nothing. -/
theorem checkUpgrade_self (hs : s.validate = .ok ()) : s.checkUpgrade s = .allow [] := by
  rcases checkUpgrade_cases s s with ⟨-, hverdict⟩ | ⟨hkeeps, -⟩
  · rw [hverdict, appended_self]
  · exact absurd (keeps_self hs) hkeeps

/-- **What is kept in two steps is kept in one.** -/
theorem Keeps.trans {a b c : Schema} (hab : a.Keeps b) (hbc : b.Keeps c) : a.Keeps c := by
  have hsub : ∀ f ∈ a.fields, f ∈ b.fields := fun f hf => hab.mem_fields hf
  rcases hab with hempty | ⟨-, hafter, -⟩
  · exact .inl hempty
  rcases hbc with hempty | ⟨hkept, hafter', hordered⟩
  · -- What a layout without fields has kept had none.
    rw [hempty] at hsub
    exact .inl (List.eq_nil_iff_forall_not_mem.mpr fun f hf => nomatch hsub f hf)
  refine .inr ⟨fun f hf => hkept f (hsub f hf), fun f hf => ?_, hordered⟩
  obtain ⟨hmem, hnew⟩ := mem_appended_iff.mp hf
  cases hname : b.field? f.name with
  | none =>
    -- The field came with the second step, and so after the end of either layout.
    have hend : a.slotEnd ≤ b.slotEnd := slotEnd_le_iff.mpr fun g hg => slotEnd_le (hsub g hg)
    exact UInt64.le_trans hend (hafter' f (mem_appended_iff.mpr ⟨hmem, hname⟩))
  | some g =>
    -- The name came with the first step, and the last layout has no field of it before that one.
    obtain ⟨hg, hgname⟩ := mem_of_field?_eq_some hname
    have hgnew : g ∈ appended a b := mem_appended_iff.mpr ⟨hg, by rw [hgname, hnew]⟩
    have hfirst : c.field? f.name = some g := by rw [← hgname, hkept g hg]
    exact UInt64.le_trans (hafter g hgnew) (slotIndex_le_of_field? hordered hfirst hmem)

/-! ## The fields of a layout that takes over -/

/-- **A validated layout that takes over has the old fields and the added ones**, each of them
once. -/
theorem fields_perm (hold : old.validate = .ok ()) (hnew : new.validate = .ok ())
    (hkeeps : old.Keeps new) : new.fields.Perm (old.fields ++ appended old new) := by
  have happended : (old.fields ++ appended old new).Nodup := by
    refine List.nodup_append'.mpr ⟨nodup_fields hold, (nodup_fields hnew).filter _, fun f hf hf' => ?_⟩
    have hfound := field?_of_mem hold hf
    rw [(mem_appended_iff.mp hf').2] at hfound
    cases hfound
  refine (List.perm_ext_iff_of_nodup (nodup_fields hnew) happended).mpr fun f => ?_
  rw [List.mem_append]
  constructor
  · intro hf
    cases hname : old.field? f.name with
    | none => exact .inr (mem_appended_iff.mpr ⟨hf, hname⟩)
    | some g =>
      -- The old field of the name is in the new layout too, where names are distinct.
      obtain ⟨hg, hgname⟩ := mem_of_field?_eq_some hname
      have hsame := field?_of_mem hnew (hkeeps.mem_fields hg)
      rw [hgname, field?_of_mem hnew hf] at hsame
      exact .inl (Option.some.inj hsame ▸ hg)
  · rintro (hf | hf)
    · exact hkeeps.mem_fields hf
    · exact (mem_appended_iff.mp hf).1

end SlotLedger.Schema
