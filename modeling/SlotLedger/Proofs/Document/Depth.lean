import SlotLedger.Proofs.Document.ReadBack

/-!
# Documents that do not nest too deep

A text is read as the document that was written only as far down as documents may nest.  Where a
written document does not nest deeper than that, all of it is read, and the value is found.

## Main definitions

* `Json.depth`: how many containers a document nests
* `Json.ReadsWhole`: a reader finds the value in every written document that does not nest too deep

## Main results

* `Json.toDepth_of_depth_le`: nothing is missing where there is room enough
* `Json.ReadsWhole.parse?_compact`: the value is read from the document's text
* `LedgerImage.readsWhole`, `Snapshot.readsWhole`: the documents of ledgers and snapshots
-/

namespace SlotLedger

namespace Json

/-! ## Depth -/

mutual

/-- The number of containers that a document nests. -/
def depth : Json → Nat
  | .array items => itemsDepth items + 1
  | .object members => membersDepth members + 1
  | _ => 0

def itemsDepth : List Json → Nat
  | [] => 0
  | item :: rest => max (depth item) (itemsDepth rest)

def membersDepth : List (String × Json) → Nat
  | [] => 0
  | (_, value) :: rest => max (depth value) (membersDepth rest)

end

theorem contained_of_pos {room : Nat} (h : 0 < room) (j : Json) : contained room j = j := by
  rw [contained, if_neg (by omega)]

mutual

/-- **Nothing is missing where there is room enough.** -/
theorem toDepth_of_depth_le (j : Json) {room : Nat} (h : j.depth ≤ room) : j.toDepth room = j := by
  match j with
  | .array items =>
    rw [depth] at h
    rw [toDepth, contained_of_pos (by omega), itemsToDepth_of_depth_le items (by omega)]
  | .object members =>
    rw [depth] at h
    rw [toDepth, contained_of_pos (by omega), membersToDepth_of_depth_le members (by omega)]
  | .null | .bool _ | .natural _ | .real _ | .string _ | .unreadable => rfl

theorem itemsToDepth_of_depth_le (items : List Json) {room : Nat} (h : itemsDepth items ≤ room) :
    itemsToDepth room items = items := by
  match items with
  | [] => rfl
  | item :: rest =>
    rw [itemsDepth, Nat.max_le] at h
    rw [itemsToDepth, toDepth_of_depth_le item h.1, itemsToDepth_of_depth_le rest h.2]

theorem membersToDepth_of_depth_le (members : List (String × Json)) {room : Nat}
    (h : membersDepth members ≤ room) : membersToDepth room members = members := by
  match members with
  | [] => rfl
  | (key, value) :: rest =>
    rw [membersDepth, Nat.max_le] at h
    rw [membersToDepth, toDepth_of_depth_le value h.1, membersToDepth_of_depth_le rest h.2]

end

theorem itemsDepth_le_iff {items : List Json} {n : Nat} :
    itemsDepth items ≤ n ↔ ∀ item ∈ items, item.depth ≤ n := by
  induction items with
  | nil => simp [itemsDepth]
  | cons item rest ih => rw [itemsDepth, Nat.max_le, ih, List.forall_mem_cons]

theorem depth_le_itemsDepth {item : Json} {items : List Json} (h : item ∈ items) :
    item.depth ≤ itemsDepth items :=
  itemsDepth_le_iff.mp (Nat.le_refl _) item h

theorem depth_le_membersDepth {name : String} {value : Json} {members : List (String × Json)}
    (h : (name, value) ∈ members) : value.depth ≤ membersDepth members := by
  induction members with
  | nil => cases h
  | cons first rest ih =>
    rw [membersDepth]
    rcases List.mem_cons.mp h with rfl | hrest
    · exact Nat.le_max_left _ _
    · exact Nat.le_trans (ih hrest) (Nat.le_max_right _ _)

/-! ## Readers -/

variable {α : Type} {read : Json → Option α} {write : α → Json}

/-- The reader finds what was written, unless the document nests too deep. -/
def ReadsWhole (read : Json → Option α) (write : α → Json) : Prop :=
  ∀ a, (write a).depth ≤ maxDepth → read (write a) = some a

theorem ReadsWhole.parse?_compact (h : ReadsWhole read write) {a : α}
    (hplain : (write a).isPlain = true) (hdepth : (write a).depth ≤ maxDepth) :
    (parse? (write a).compact).bind read = some a := by
  rw [Json.parse?_compact hplain, toDepth_of_depth_le _ hdepth, Option.bind_some, h a hdepth]

theorem uint32?_ofUInt32 (n : UInt32) : uint32? (ofUInt32 n) = some n := by
  have hnumber : (UInt64.ofNat n.toNat).toNat = n.toNat :=
    UInt64.toNat_ofNat_of_lt' (Nat.lt_trans n.toNat_lt (by decide))
  rw [ofUInt32, uint32?, hnumber, if_pos n.toNat_lt, UInt32.ofNat_toNat]

theorem readsWhole_list (h : ReadsWhole read write) :
    ReadsWhole (list? read) fun items => .array (items.map write) := by
  intro items hdepth
  rw [depth] at hdepth
  have hitems : ∀ a ∈ items, read (write a) = some a := by
    intro a ha
    have hitem := depth_le_itemsDepth (List.mem_map_of_mem (f := write) ha)
    exact h a (by omega)
  clear hdepth
  rw [list?]
  induction items with
  | nil => rfl
  | cons a rest ih =>
    obtain ⟨ha, hrest⟩ := List.forall_mem_cons.mp hitems
    rw [List.map_cons, List.mapM_cons, ha, ih hrest]
    rfl

/-- A record that was written with all its fields is read from these. -/
theorem read_record {names : List String} {members : List (String × Json)} {extra : ExtraKeys}
    {f : Record → Option α} {v : α} (hnames : members.map Prod.fst = names)
    (hdistinct : names.Nodup) (h : f ⟨true, members⟩ = some v) :
    ((Json.object members).record? names extra).bind f = some v := by
  rw [record?_object hnames hdistinct, Option.bind_some, h]

/-- The next field is read from the document under its name. -/
theorem read_required {β : Type} {members : List (String × Json)} {name : String} {j : Json}
    {f : α → Option β} {a : α} {v : β}
    (hmember : (members.find? (·.1 == name)).map Prod.snd = some j) (hread : read j = some a)
    (h : f a = some v) : ((Record.mk true members).required name read).bind f = some v := by
  rw [Record.required, Record.find?, hmember]
  exact Option.bind_eq_some_iff.mpr ⟨a, hread, h⟩

end Json

/-! ## The documents of a ledger -/

open Json

theorem Word.ofJson?_toJson (w : Word) : Word.ofJson? (Word.toJson w) = some w :=
  Word.ofNumeral?_shortHex w

theorem StorageWord.readsWhole : ReadsWhole StorageWord.ofJson? StorageWord.toJson := by
  intro w _
  rw [toJson, ofJson?]
  refine read_record (by rfl) (by decide) ?_
  refine read_required rfl (Word.ofJson?_toJson w.slot) ?_
  exact read_required rfl (Word.ofJson?_toJson w.value) rfl

namespace SemanticType

/-- Every choice takes two containers, so there are levels enough to read them. -/
theorem ofJsonWithin?_toJson {t : SemanticType} {depth : Nat} (h : t.toJson.depth < depth) :
    ofJsonWithin? depth t.toJson = some t := by
  induction t generalizing depth with
  | mapping key value hkey hvalue =>
    obtain ⟨depth, rfl⟩ : ∃ d, depth = d + 1 := Nat.exists_eq_add_one.mpr (by omega)
    simp only [toJson, Json.depth, membersDepth] at h
    rw [toJson, ofJsonWithin?]
    refine read_record (show _ = ["key", "value"] by rfl) (by decide) ?_
    refine read_required rfl (hkey (by omega)) ?_
    exact read_required rfl (hvalue (by omega)) rfl
  | array element length helement =>
    obtain ⟨depth, rfl⟩ : ∃ d, depth = d + 1 := Nat.exists_eq_add_one.mpr (by omega)
    simp only [toJson, Json.depth, membersDepth] at h
    rw [toJson, ofJsonWithin?]
    refine read_record (show _ = ["element", "length"] by rfl) (by decide) ?_
    refine read_required rfl (helement (by omega)) ?_
    exact read_required rfl (uint32?_ofUInt32 length) rfl
  | _ =>
    obtain ⟨depth, rfl⟩ : ∃ d, depth = d + 1 := Nat.exists_eq_add_one.mpr (by omega)
    rfl

theorem readsWhole : ReadsWhole ofJson? toJson :=
  fun _ hdepth => ofJsonWithin?_toJson (Nat.lt_succ_of_le hdepth)

end SemanticType

/-- What a member nests is less than what its object nests. -/
theorem Json.depth_le_of_member {members : List (String × Json)} (name : String) {j : Json}
    (hmember : (name, j) ∈ members) (hdepth : (Json.object members).depth ≤ maxDepth) :
    j.depth ≤ maxDepth := by
  rw [depth] at hdepth
  exact Nat.le_trans (depth_le_membersDepth hmember) (Nat.le_of_succ_le hdepth)

theorem Field.readsWhole : ReadsWhole Field.ofJson? Field.toJson := by
  intro f hdepth
  have htype := SemanticType.readsWhole f.semanticType
    (depth_le_of_member "semantic_type" (by simp) hdepth)
  rw [toJson, ofJson?]
  refine read_record (by rfl) (by decide) ?_
  refine read_required (a := f.name) rfl rfl ?_
  refine read_required rfl htype ?_
  refine read_required (a := f.slotIndex) rfl rfl ?_
  exact read_required rfl (uint32?_ofUInt32 f.byteWidth) rfl

theorem readsWhole_fieldsToJson : ReadsWhole (list? Field.ofJson?) fieldsToJson :=
  readsWhole_list Field.readsWhole

theorem Schema.readsWhole : ReadsWhole Schema.ofJson? Schema.toJson := by
  intro s hdepth
  have hfields := readsWhole_fieldsToJson s.fields
    (depth_le_of_member "fields" (by simp) hdepth)
  rw [toJson, ofJson?]
  refine read_record (by rfl) (by decide) ?_
  refine read_required (a := s.name) rfl rfl ?_
  refine read_required rfl (uint32?_ofUInt32 s.version) ?_
  exact read_required rfl hfields rfl

theorem UpgradeRecord.readsWhole : ReadsWhole UpgradeRecord.ofJson? UpgradeRecord.toJson := by
  intro u hdepth
  have hfields := readsWhole_fieldsToJson u.appendedFields
    (depth_le_of_member "appended_fields" (by simp) hdepth)
  rw [toJson, ofJson?]
  refine read_record (by rfl) (by decide) ?_
  refine read_required (a := u.fromImplementation) rfl rfl ?_
  refine read_required rfl (uint32?_ofUInt32 u.fromVersion) ?_
  refine read_required (a := u.toImplementation) rfl rfl ?_
  refine read_required rfl (uint32?_ofUInt32 u.toVersion) ?_
  exact read_required rfl hfields rfl

/-- **The image of a ledger is read whole** where it does not nest too deep. -/
theorem LedgerImage.readsWhole : ReadsWhole LedgerImage.ofJson? LedgerImage.toJson := by
  intro i hdepth
  have hschema := Schema.readsWhole i.schema
    (depth_le_of_member "schema" (by simp) hdepth)
  have hhistory := readsWhole_list UpgradeRecord.readsWhole i.history
    (depth_le_of_member "history" (by simp) hdepth)
  have hwords := readsWhole_list StorageWord.readsWhole i.words
    (depth_le_of_member "storage" (by simp) hdepth)
  rw [toJson, ofJson?]
  refine read_record (by rfl) (by decide) ?_
  refine read_required (a := i.implementation) rfl rfl ?_
  refine read_required (a := i.upgradeable) rfl rfl ?_
  refine read_required rfl hschema ?_
  refine read_required rfl hhistory ?_
  exact read_required rfl hwords rfl

/-- **A snapshot is read whole**: it holds the image as a text, and nests nothing. -/
theorem Snapshot.ofJson?_toJson (s : Snapshot) : Snapshot.ofJson? s.toJson = some s := by
  rw [toJson, ofJson?]
  refine read_record (by rfl) (by decide) ?_
  refine read_required (a := s.sequence) rfl rfl ?_
  refine read_required rfl (uint32?_ofUInt32 s.kernelVersion) ?_
  refine read_required (a := s.fingerprint) rfl rfl ?_
  refine read_required (a := s.content) rfl rfl ?_
  exact read_required (a := s.digest) rfl rfl rfl

end SlotLedger
