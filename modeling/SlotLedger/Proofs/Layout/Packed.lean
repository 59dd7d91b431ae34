import Mathlib.Data.List.Infix
import SlotLedger.Proofs.Layout.Builder
import SlotLedger.Proofs.Layout.Preorder
import SlotLedger.Proofs.Layout.Slots

/-!
# Packed layouts

A builder that skips no slots packs the declared fields one after another.  Each field then starts
where the one before it ends, so its position tells what was declared before it, and the check of
layouts, which goes by names, positions and widths alone, decides which declarations begin with
which.  Nothing is assumed of the types: a type without a width still takes a slot.

## Main definitions

* `SchemaBuilder.declare`, `Schema.packed`: the layout of a list of declarations
* `Schema.pack`, `Schema.packEnd`: its fields, and the position after them
* `Schema.totalSpan`: the number of slots that the fields of a layout take together

## Main results

* `Schema.fields_packed`, `Schema.map_declaration_pack`: what a packed layout has
* `Schema.isChain_pack`, `Schema.endsInRange_of_mem_pack`: where its fields are
* `Schema.checkUpgrade_pack_append`: more declarations at the end
* `Schema.checkUpgrade_pack_diverging`: another declaration at some place
* `Schema.checkUpgrade_packed_iff_isPrefix`: the check decides which declarations begin with which
-/

namespace SlotLedger

namespace Field

/-- A field that ends in range is not at the position of a field after it. -/
theorem slotIndex_ne_of_precedes {f g : Field} (hend : f.EndsInRange) (hfg : f.Precedes g) :
    f.slotIndex ≠ g.slotIndex := by
  intro hshared
  have hlast := toNat_slotIndex_of_precedes hfg hshared
  have hspan := f.slotSpan_pos
  rw [EndsInRange, hlast] at hend
  omega

end Field

/-- Declare fields one after another, without skipping slots. -/
def SchemaBuilder.declare (b : SchemaBuilder) (declared : List Declaration) : SchemaBuilder :=
  declared.foldl (fun b d => b.field d.1 d.2) b

namespace Schema

/-! ## Packing -/

/-- The layout of a list of declarations. -/
def packed (name : String) (version : UInt32) (declared : List Declaration) : Schema :=
  ((SchemaBuilder.start name version).declare declared).build

/-- The declared fields, one after another from a position on. -/
def pack (free : SlotIndex) : List Declaration → List Field
  | [] => []
  | d :: rest => .ofType d.1 d.2 free :: pack (Field.ofType d.1 d.2 free).slotEnd rest

/-- The position after the declared fields. -/
def packEnd (free : SlotIndex) : List Declaration → SlotIndex
  | [] => free
  | d :: rest => packEnd (Field.ofType d.1 d.2 free).slotEnd rest

/-- The number of slots that the fields take together. -/
def totalSpan (s : Schema) : Nat := (s.fields.map (·.slotSpan.toNat)).sum

variable {free : SlotIndex} {declared first later : List Declaration} {f g : Field}

/-- Packing is laying out without skipping slots. -/
theorem laid_map_field (free : SlotIndex) (declared : List Declaration) :
    laid free (declared.map .field) = pack free declared := by
  induction declared generalizing free with
  | nil => rfl
  | cons d rest ih => exact congrArg (_ :: ·) (ih _)

theorem laidEnd_map_field (free : SlotIndex) (declared : List Declaration) :
    laidEnd free (declared.map .field) = packEnd free declared := by
  induction declared generalizing free with
  | nil => rfl
  | cons d rest ih => exact ih _

theorem packed_eq_built (name : String) (version : UInt32) (declared : List Declaration) :
    packed name version declared = built name version (declared.map .field) := by
  rw [packed, built, SchemaBuilder.declare, SchemaBuilder.follow, List.foldl_map]
  rfl

/-- A packed layout has the declared fields from slot zero on. -/
theorem fields_packed (name : String) (version : UInt32) (declared : List Declaration) :
    (packed name version declared).fields = pack 0 declared := by
  rw [packed_eq_built, fields_built, laid_map_field]

theorem pack_append (free : SlotIndex) (first later : List Declaration) :
    pack free (first ++ later) = pack free first ++ pack (packEnd free first) later := by
  rw [← laid_map_field, List.map_append, laid_append, laidEnd_map_field, laid_map_field,
    laid_map_field]

/-- Packing keeps what was declared, in order. -/
theorem map_declaration_pack (free : SlotIndex) (declared : List Declaration) :
    (pack free declared).map Field.declaration = declared := by
  rw [← laid_map_field, map_declaration_laid, List.filterMap_map]
  exact List.filterMap_some

theorem length_pack (free : SlotIndex) (declared : List Declaration) :
    (pack free declared).length = declared.length := by
  have hmap := congrArg List.length (map_declaration_pack free declared)
  rwa [List.length_map] at hmap

theorem map_name_pack (free : SlotIndex) (declared : List Declaration) :
    (pack free declared).map Field.name = declared.map Prod.fst := by
  have hmap := congrArg (List.map Prod.fst) (map_declaration_pack free declared)
  rwa [List.map_map] at hmap

/-! ## Positions -/

/-- No packed field starts before the end of the field before it. -/
theorem isChain_pack (free : SlotIndex) (declared : List Declaration) :
    (pack free declared).IsChain Field.Precedes :=
  laid_map_field free declared ▸ isChain_laid free (declared.map .field)

theorem pairwise_precedes_pack (free : SlotIndex) (declared : List Declaration) :
    (pack free declared).Pairwise Field.Precedes :=
  List.isChain_iff_pairwise.mp (isChain_pack free declared)

/-- Where the declared fields take no more slots than there are, all of them end in range. -/
theorem endsInRange_of_mem_pack
    (hspan : free.toNat + ((pack free declared).map (·.slotSpan.toNat)).sum < UInt64.size)
    (hf : f ∈ pack free declared) : f.EndsInRange := by
  induction declared generalizing free with
  | nil => cases hf
  | cons d rest ih =>
    rw [pack, List.map_cons, List.sum_cons] at hspan
    -- There is room for all slots, so the end is not held back at the greatest position.
    have hend : (Field.ofType d.1 d.2 free).slotEnd.toNat =
        free.toNat + (Field.ofType d.1 d.2 free).slotSpan.toNat := by
      rw [Field.toNat_slotEnd, Nat.min_eq_left]
      · rfl
      · change free.toNat + _ ≤ _
        omega
    rcases List.mem_cons.mp hf with rfl | hrest
    · change free.toNat + _ < _
      omega
    · exact ih (by rw [hend]; omega) hrest

/-! ## The check on packed layouts -/

theorem firstChange_append {new : Schema} {before after : List Field} {v : LayoutViolation}
    (hkept : ∀ g ∈ before, new.field? g.name = some g) (hf : fieldChange new f = some v) :
    firstChange new (before ++ f :: after) = some (f, v) := by
  induction before with
  | nil => rw [List.nil_append, firstChange, hf]
  | cons g rest ih =>
    obtain ⟨hg, hrest⟩ := List.forall_mem_cons.mp hkept
    rw [List.cons_append, firstChange, fieldChange_eq_none_iff.mpr hg]
    exact ih hrest

theorem checkUpgrade_of_firstChange {old new : Schema} {v : LayoutViolation}
    (h : firstChange new old.fields = some (f, v)) :
    old.checkUpgrade new = .reject .preservedField f v := by
  have hsome : old.isEmpty = false := by
    cases hfields : old.fields with
    | nil =>
      rw [hfields] at h
      cases h
    | cons g rest => rw [isEmpty, hfields, List.isEmpty_cons]
  rw [checkUpgrade, hsome, h]
  rfl

section Checked

variable {old new : Schema} (hold : old.fields = pack 0 first)

include hold

/-- Where the names are distinct, the fields of new names are those declared later. -/
theorem appended_pack (hnew : new.fields = pack 0 (first ++ later))
    (hnames : ((first ++ later).map Prod.fst).Nodup) :
    appended old new = pack (packEnd 0 first) later := by
  rw [← map_name_pack 0, pack_append, List.map_append] at hnames
  -- The names tell apart what was declared before and what is declared later.
  have hdropped : ∀ f ∈ pack 0 first, ¬ (old.field? f.name).isNone = true := by
    intro f hf hnone
    rw [field?, hold, Option.isNone_iff_eq_none] at hnone
    exact absurd (List.find?_eq_none.mp hnone f hf) (by simp)
  have hkept : ∀ f ∈ pack (packEnd 0 first) later, (old.field? f.name).isNone = true := by
    intro f hf
    rw [field?, hold, Option.isNone_iff_eq_none, List.find?_eq_none]
    intro g hg hname
    have hshared : g.name ∈ (pack (packEnd 0 first) later).map Field.name :=
      beq_iff_eq.mp hname ▸ List.mem_map_of_mem hf
    exact List.disjoint_of_nodup_append hnames (List.mem_map_of_mem hg) hshared
  rw [appended, hnew, pack_append, List.filter_append, List.filter_eq_nil_iff.mpr hdropped,
    List.filter_eq_self.mpr hkept, List.nil_append]

/-- **More declarations at the end** are added fields. -/
theorem checkUpgrade_pack_append (hnew : new.fields = pack 0 (first ++ later))
    (hnames : ((first ++ later).map Prod.fst).Nodup) :
    old.checkUpgrade new = .allow (pack (packEnd 0 first) later) := by
  have happended := appended_pack hold hnew hnames
  -- What is declared later starts behind the end of all that was declared before.
  have hordered := pairwise_precedes_pack 0 (first ++ later)
  rw [pack_append] at hordered
  have hkeeps : old.Keeps new := by
    refine .inr ⟨fun f hf => ?_, fun f hf => ?_, hnew ▸ isChain_pack 0 _⟩
    · refine field?_of_mem_of_nodup ?_ ?_
      · rwa [hnew, map_name_pack]
      · rw [hnew, pack_append, ← hold]
        exact List.mem_append_left _ hf
    · rw [happended] at hf
      refine slotEnd_le_iff.mpr fun g hg => ?_
      exact (List.pairwise_append.mp hordered).2.2 g (hold ▸ hg) f hf
  rcases checkUpgrade_cases old new with ⟨-, hverdict⟩ | ⟨hnot, -⟩
  · rw [hverdict, happended]
  · exact absurd hkeeps hnot

end Checked

/-- A field that is declared in another way, or nowhere, is not carried over: its position tells
the place of its declaration. -/
theorem fieldChange_pack_ne_none {new : Schema} {common later : List Declaration} {d : Declaration}
    (hnew : new.fields = pack 0 (common ++ later)) (hspan : new.totalSpan < UInt64.size)
    (hname : d.1 ∉ common.map Prod.fst) (hdiffers : later.head? ≠ some d) :
    fieldChange new (.ofType d.1 d.2 (packEnd 0 common)) ≠ none := by
  intro hkept
  have hmem := (mem_of_field?_eq_some (fieldChange_eq_none_iff.mp hkept)).1
  rw [hnew, pack_append] at hmem
  rw [totalSpan, hnew] at hspan
  have hends : ∀ f ∈ pack 0 (common ++ later), f.EndsInRange := by
    intro f hf
    exact endsInRange_of_mem_pack (by simpa using hspan) hf
  have hordered := pairwise_precedes_pack 0 (common ++ later)
  rw [pack_append] at hends hordered
  -- A field before that place has another name, and one behind it another position.
  rcases List.mem_append.mp hmem with hbefore | hafter
  · have hdeclared := List.mem_map_of_mem (f := Field.name) hbefore
    rw [map_name_pack] at hdeclared
    exact hname hdeclared
  · cases later with
    | nil => cases hafter
    | cons e rest =>
      rcases List.mem_cons.mp hafter with hhere | hlater
      · -- At the same place stands the same declaration.
        have hsame : d = e := congrArg Field.declaration hhere
        exact hdiffers (congrArg some hsame.symm)
      · -- Every later field starts behind the one at this place.
        have hfirst : Field.ofType e.1 e.2 (packEnd 0 common) ∈
            pack (packEnd 0 common) (e :: rest) := List.mem_cons_self
        have hprecedes := (List.pairwise_cons.mp (List.pairwise_append.mp hordered).2.1).1 _ hlater
        have hend := hends _ (List.mem_append_right _ hfirst)
        exact Field.slotIndex_ne_of_precedes hend hprecedes rfl

/-- **Another declaration at some place** is blamed on the old field of that place. -/
theorem checkUpgrade_pack_diverging {old new : Schema} {common rest later : List Declaration}
    {d : Declaration} (hold : old.fields = pack 0 (common ++ d :: rest))
    (hnew : new.fields = pack 0 (common ++ later)) (hspan : new.totalSpan < UInt64.size)
    (hnames : ((common ++ d :: rest).map Prod.fst).Nodup)
    (hnames' : ((common ++ later).map Prod.fst).Nodup) (hdiffers : later.head? ≠ some d) :
    ∃ v, old.checkUpgrade new =
      .reject .preservedField (.ofType d.1 d.2 (packEnd 0 common)) v := by
  have hname : d.1 ∉ common.map Prod.fst := by
    intro hmem
    rw [List.map_append] at hnames
    exact List.disjoint_of_nodup_append hnames hmem List.mem_cons_self
  obtain ⟨v, hv⟩ := Option.ne_none_iff_exists'.mp
    (fieldChange_pack_ne_none hnew hspan hname hdiffers)
  refine ⟨v, checkUpgrade_of_firstChange ?_⟩
  rw [hold, pack_append, pack]
  refine firstChange_append (fun g hg => field?_of_mem_of_nodup ?_ ?_) hv
  · rwa [hnew, map_name_pack]
  · rw [hnew, pack_append]
    exact List.mem_append_left _ hg

/-! ## The order of declarations -/

/-- Two lists of which the first does not begin the second part ways at some place. -/
theorem exists_divergence {first second : List Declaration} (h : ¬ first <+: second) :
    ∃ common d rest later, first = common ++ d :: rest ∧ second = common ++ later ∧
      later.head? ≠ some d := by
  induction first generalizing second with
  | nil => exact absurd List.nil_prefix h
  | cons d first ih =>
    by_cases hhead : second.head? = some d
    · obtain ⟨second, rfl⟩ : ∃ rest, second = d :: rest := List.head?_eq_some_iff.mp hhead
      rw [List.prefix_cons_inj] at h
      obtain ⟨common, d', rest, later, rfl, rfl, hdiffers⟩ := ih h
      exact ⟨d :: common, d', rest, later, rfl, rfl, hdiffers⟩
    · exact ⟨[], d, first, second, rfl, rfl, hhead⟩

/-- The place of the divergence is told by what stands at the places of both lists. -/
theorem getElem?_divergence (common rest : List Declaration) {later : List Declaration}
    {d : Declaration} (hdiffers : later.head? ≠ some d) :
    (∀ j < common.length, (common ++ later)[j]? = (common ++ d :: rest)[j]?) ∧
      (common ++ later)[common.length]? ≠ (common ++ d :: rest)[common.length]? ∧
      (common ++ d :: rest)[common.length]? = some d := by
  have hhere : (common ++ d :: rest)[common.length]? = some d := by
    rw [List.getElem?_append_right (Nat.le_refl _), Nat.sub_self]
    rfl
  refine ⟨fun j hj => ?_, ?_, hhere⟩
  · rw [List.getElem?_append_left hj, List.getElem?_append_left hj]
  · rw [hhere, List.getElem?_append_right (Nat.le_refl _), Nat.sub_self, ← List.head?_eq_getElem?]
    exact hdiffers

/-- **The check decides which declarations begin with which.**  A packed layout takes over exactly
if its declarations begin with the old ones, and adds the fields of the others in order.  Else the
blame is on the old field at the first place where the declarations differ. -/
theorem checkUpgrade_packed_iff_isPrefix (oldName newName : String) (oldVersion newVersion : UInt32)
    {first second : List Declaration} (hfirst : (first.map Prod.fst).Nodup)
    (hsecond : (second.map Prod.fst).Nodup)
    (hspan : (packed newName newVersion second).totalSpan < UInt64.size) :
    let old := packed oldName oldVersion first
    let new := packed newName newVersion second
    ((old.checkUpgrade new).isAllowed = true ↔ first <+: second) ∧
      (∀ later, first ++ later = second →
        old.checkUpgrade new = .allow (new.fields.drop first.length) ∧
          (new.fields.drop first.length).map Field.declaration = later) ∧
      (¬ first <+: second → ∃ i < first.length, (∀ j < i, second[j]? = first[j]?) ∧
        second[i]? ≠ first[i]? ∧ ∃ f v, old.fields[i]? = some f ∧
          first[i]? = some f.declaration ∧ old.checkUpgrade new = .reject .preservedField f v) := by
  intro old new
  have hold : old.fields = pack 0 first := fields_packed ..
  have hnew : new.fields = pack 0 second := fields_packed ..
  have hallow : ∀ later, first ++ later = second →
      old.checkUpgrade new = .allow (new.fields.drop first.length) ∧
        (new.fields.drop first.length).map Field.declaration = later := by
    rintro later rfl
    rw [checkUpgrade_pack_append hold hnew hsecond, hnew, pack_append,
      List.drop_left' (length_pack 0 first)]
    exact ⟨rfl, map_declaration_pack ..⟩
  have hreject : ¬ first <+: second → ∃ i < first.length, (∀ j < i, second[j]? = first[j]?) ∧
      second[i]? ≠ first[i]? ∧ ∃ f v, old.fields[i]? = some f ∧
        first[i]? = some f.declaration ∧ old.checkUpgrade new = .reject .preservedField f v := by
    intro hnot
    obtain ⟨common, d, rest, later, hf, hs, hdiffers⟩ := exists_divergence hnot
    subst hf hs
    obtain ⟨v, hv⟩ := checkUpgrade_pack_diverging hold hnew hspan hfirst hsecond hdiffers
    obtain ⟨hbefore, hpart, hhere⟩ := getElem?_divergence common rest hdiffers
    refine ⟨common.length, by simp, hbefore, hpart, .ofType d.1 d.2 (packEnd 0 common), v, ?_,
      hhere, hv⟩
    rw [hold, pack_append, List.getElem?_append_right (by rw [length_pack]), length_pack,
      Nat.sub_self]
    rfl
  refine ⟨⟨fun hallowed => ?_, ?_⟩, hallow, hreject⟩
  · by_contra hnot
    obtain ⟨_, -, -, -, _, _, -, -, hv⟩ := hreject hnot
    rw [hv] at hallowed
    cases hallowed
  · rintro ⟨later, hlater⟩
    rw [(hallow later hlater).1]
    rfl

/-- A flag, a gap of three words and an owner. -/
def flagGapOwner : List Declaration :=
  [("flag", .bool), ("gap", .array .uint256 3), ("owner", .address)]

/-- A counter comes between the gap and the owner. -/
def flagGapCountOwner : List Declaration :=
  [("flag", .bool), ("gap", .array .uint256 3), ("count", .uint256), ("owner", .address)]

/-- The counter moves the owner, and the blame is on the owner. -/
theorem checkUpgrade_packed_insertion :
    (flagGapOwner.map Prod.fst).Nodup ∧ (flagGapCountOwner.map Prod.fst).Nodup ∧
      (packed "Second" 2 flagGapCountOwner).totalSpan < UInt64.size ∧
      ¬ flagGapOwner <+: flagGapCountOwner ∧
      ∃ f v, f.name = "owner" ∧ (packed "First" 1 flagGapOwner).checkUpgrade
        (packed "Second" 2 flagGapCountOwner) = .reject .preservedField f v := by
  have hfirst : (flagGapOwner.map Prod.fst).Nodup := by decide
  have hsecond : (flagGapCountOwner.map Prod.fst).Nodup := by decide
  have hspan : (packed "Second" 2 flagGapCountOwner).totalSpan < UInt64.size := by decide
  have hnot : ¬ flagGapOwner <+: flagGapCountOwner := by decide
  refine ⟨hfirst, hsecond, hspan, hnot, ?_⟩
  obtain ⟨-, -, hreject⟩ :=
    checkUpgrade_packed_iff_isPrefix "First" "Second" 1 2 hfirst hsecond hspan
  obtain ⟨i, hi, -, hdiffers, f, v, -, hf, hverdict⟩ := hreject hnot
  refine ⟨f, v, ?_, hverdict⟩
  -- The flag and the gap stand in both lists at the same place.
  match i, hi with
  | 0, _ => exact absurd rfl hdiffers
  | 1, _ => exact absurd rfl hdiffers
  | 2, _ => exact (congrArg Prod.fst (Option.some.inj hf)).symm

end Schema

end SlotLedger
