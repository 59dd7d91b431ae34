import SlotLedger.Proofs.Document.Words
import SlotLedger.Proofs.Json.RoundTrip
import SlotLedger.Snapshot.Basic

/-!
# Documents of ledgers are read back

Reading gives no value for what nests too deep.  So what is read from a written document is the
value that was written, or nothing, if the types in it are nested deeper than documents may be.

## Main definitions

* `Json.ReadsBack`: what a reader finds in a written document is what was written

## Main results

* `Json.ReadsBack.parse?_compact`: the same of the document's text
* `LedgerImage.readsBack`, `Snapshot.readsBack`: images of ledgers and snapshots are read back
-/

namespace SlotLedger

namespace Json

variable {α : Type} {read : Json → Option α} {write : α → Json}

/-- The reader finds in a written document what was written, or nothing where it nests too deep. -/
structure ReadsBack (read : Json → Option α) (write : α → Json) : Prop where
  isPlain : ∀ a, (write a).isPlain = true
  eq_of_read : ∀ {a room v}, read ((write a).toDepth room) = some v → v = a

theorem ReadsBack.parse?_compact (h : ReadsBack read write) {a v : α}
    (hread : (parse? (write a).compact).bind read = some v) : v = a := by
  rw [Json.parse?_compact (h.isPlain a), Option.bind_some] at hread
  exact h.eq_of_read hread

/-! ## Scalars -/

theorem readsBack_string : ReadsBack string? .string where
  isPlain _ := rfl
  eq_of_read h := (Option.some.inj h).symm

theorem readsBack_bool : ReadsBack bool? .bool where
  isPlain _ := rfl
  eq_of_read h := (Option.some.inj h).symm

theorem readsBack_natural : ReadsBack uint64? .natural where
  isPlain _ := rfl
  eq_of_read h := (Option.some.inj h).symm

theorem readsBack_uint32 : ReadsBack uint32? ofUInt32 where
  isPlain _ := rfl
  eq_of_read {a room v} h := by
    -- A number of thirty-two bits is in the range that the reader asks for.
    have hnumber : (UInt64.ofNat a.toNat).toNat = a.toNat :=
      UInt64.toNat_ofNat_of_lt' (Nat.lt_trans a.toNat_lt (by decide))
    have hread : (if (UInt64.ofNat a.toNat).toNat < UInt32.size then
        some (UInt32.ofNat (UInt64.ofNat a.toNat).toNat) else none) = some v := h
    rw [hnumber, if_pos a.toNat_lt, UInt32.ofNat_toNat] at hread
    exact (Option.some.inj hread).symm

/-! ## Containers -/

theorem arePlain_map (h : ReadsBack read write) (items : List α) :
    arePlain (items.map write) = true :=
  arePlain_iff.mpr (List.forall_mem_map.mpr fun a _ => h.isPlain a)

theorem mapM_itemsToDepth (h : ReadsBack read write) (room : Nat) {items values : List α}
    (hread : (itemsToDepth room (items.map write)).mapM read = some values) : values = items := by
  induction items generalizing values with
  | nil => exact (Option.some.inj hread).symm
  | cons a rest ih =>
    rw [List.map_cons, itemsToDepth, List.mapM_cons] at hread
    obtain ⟨v, hv, hread⟩ := Option.bind_eq_some_iff.mp hread
    obtain ⟨vs, hvs, hread⟩ := Option.bind_eq_some_iff.mp hread
    rw [← Option.some.inj hread, h.eq_of_read hv, ih hvs]

/-- A container that is read was not too deep. -/
theorem contained_eq {room : Nat} {j : Json} {f : Json → Option α} {v : α}
    (hnone : f .unreadable = none) (h : f (contained room j) = some v) : f j = some v := by
  rw [contained] at h
  split at h
  · rw [hnone] at h
    cases h
  · exact h

theorem readsBack_list (h : ReadsBack read write) :
    ReadsBack (list? read) fun items => .array (items.map write) where
  isPlain items := arePlain_map h items
  eq_of_read hread := mapM_itemsToDepth h _ (contained_eq (f := list? read) rfl hread)

/-! ## Records -/

theorem distinctKeys_iff {members : List (String × Json)} :
    distinctKeys members = true ↔ (members.map Prod.fst).Nodup := by
  induction members with
  | nil => simp [distinctKeys]
  | cons m rest ih =>
    have hfresh : (!rest.any (·.1 == m.1)) = true ↔ m.1 ∉ rest.map Prod.fst := by
      simp only [Bool.not_eq_true', List.any_eq_false, beq_iff_eq, List.mem_map, not_exists,
        not_and]
    rw [distinctKeys, Bool.and_eq_true, hfresh, ih, List.map_cons, List.nodup_cons]

/-- A record that was written with all its fields is read as these. -/
theorem record?_object {names : List String} {members : List (String × Json)}
    (hnames : members.map Prod.fst = names) (hdistinct : names.Nodup) (extra : ExtraKeys) :
    record? names extra (.object members) = some ⟨true, members⟩ := by
  have hknown : ∀ m ∈ members, names.contains m.1 = true := by
    intro m hm
    rw [List.contains_iff_mem, ← hnames]
    exact List.mem_map_of_mem hm
  -- No member is unknown, so all of them are kept in order.
  have hpartition : members.partition (fun m => names.contains m.1) = (members, []) := by
    rw [List.partition_eq_filter_filter, List.filter_eq_self.mpr hknown,
      List.filter_eq_nil_iff.mpr (by simpa using hknown)]
  have hkeys : distinctKeys members = true := by
    rw [distinctKeys_iff, hnames]
    exact hdistinct
  rw [record?, hpartition]
  dsimp only
  rw [hkeys, Bool.true_and, List.isEmpty_nil, Bool.or_true, if_pos rfl]

theorem fst_membersToDepth (room : Nat) (members : List (String × Json)) :
    (membersToDepth room members).map Prod.fst = members.map Prod.fst := by
  induction members with
  | nil => rfl
  | cons m rest ih => rw [membersToDepth, List.map_cons, ih, List.map_cons]

/-- What is read from a record comes from its fields. -/
theorem of_record? {names : List String} {members : List (String × Json)} {extra : ExtraKeys}
    {room : Nat} {f : Record → Option α} {v : α} (hnames : members.map Prod.fst = names)
    (hdistinct : names.Nodup)
    (h : (((Json.object members).toDepth room).record? names extra).bind f = some v) :
    f ⟨true, membersToDepth (room - 1) members⟩ = some v := by
  have hread := contained_eq (f := fun j => (j.record? names extra).bind f) rfl h
  rwa [record?_object ((fst_membersToDepth _ _).trans hnames) hdistinct, Option.bind_some] at hread

theorem find?_membersToDepth (room : Nat) (members : List (String × Json)) (name : String) :
    ((membersToDepth room members).find? (·.1 == name)).map Prod.snd =
      ((members.find? (·.1 == name)).map Prod.snd).map (toDepth room) := by
  induction members with
  | nil => rfl
  | cons m rest ih =>
    rw [membersToDepth, List.find?_cons, List.find?_cons]
    cases m.1 == name with
    | true => rfl
    | false => exact ih

/-- The field under a name is the one that was written under it. -/
theorem eq_of_required {j : Json} {a v : α} {members : List (String × Json)} {name : String}
    {room : Nat} (h : ∀ {room v}, read (j.toDepth room) = some v → v = a)
    (hmember : (members.find? (·.1 == name)).map Prod.snd = some j)
    (hread : (Record.mk true (membersToDepth room members)).required name read = some v) :
    v = a := by
  rw [Record.required, Record.find?, find?_membersToDepth, hmember] at hread
  exact h hread

end Json

/-! ## The documents of a ledger -/

open Json

theorem Word.readsBack : ReadsBack Word.ofJson? Word.toJson where
  isPlain _ := rfl
  eq_of_read {w room v} h := by
    have hread : Word.ofNumeral? (Word.shortHex w) = some v := h
    rw [Word.ofNumeral?_shortHex] at hread
    exact (Option.some.inj hread).symm

theorem StorageWord.readsBack : ReadsBack StorageWord.ofJson? StorageWord.toJson where
  isPlain _ := rfl
  eq_of_read {w room v} h := by
    have hread := of_record? (by rfl) (by decide) h
    obtain ⟨slot, hslot, hread⟩ := Option.bind_eq_some_iff.mp hread
    obtain ⟨value, hvalue, hread⟩ := Option.bind_eq_some_iff.mp hread
    obtain rfl := eq_of_required Word.readsBack.eq_of_read rfl hslot
    obtain rfl := eq_of_required Word.readsBack.eq_of_read rfl hvalue
    exact (Option.some.inj hread).symm

namespace SemanticType

theorem isPlain_toJson (t : SemanticType) : t.toJson.isPlain = true := by
  induction t with
  | mapping key value hkey hvalue =>
    simp [toJson, Json.isPlain, membersPlain, hkey, hvalue]
  | array element length helement =>
    simp [toJson, Json.isPlain, membersPlain, helement, ofUInt32]
  | _ => rfl

theorem eq_of_ofJsonWithin? {t v : SemanticType} {depth room : Nat}
    (h : ofJsonWithin? depth (t.toJson.toDepth room) = some v) : v = t := by
  induction t generalizing v depth room with
  | mapping key value hkey hvalue =>
    cases depth with
    | zero => cases h
    | succ depth =>
      -- A choice with a content is an object in an object.
      have hread := contained_eq (f := ofJsonWithin? (depth + 1)) (by rfl) h
      have hread := of_record? (by rfl) (by decide) hread
      obtain ⟨key', hkey', hread⟩ := Option.bind_eq_some_iff.mp hread
      obtain ⟨value', hvalue', hresult⟩ := Option.bind_eq_some_iff.mp hread
      obtain rfl := eq_of_required hkey rfl hkey'
      obtain rfl := eq_of_required hvalue rfl hvalue'
      exact (Option.some.inj hresult).symm
  | array element length helement =>
    cases depth with
    | zero => cases h
    | succ depth =>
      have hread := contained_eq (f := ofJsonWithin? (depth + 1)) (by rfl) h
      have hread := of_record? (by rfl) (by decide) hread
      obtain ⟨element', helement', hread⟩ := Option.bind_eq_some_iff.mp hread
      obtain ⟨length', hlength', hresult⟩ := Option.bind_eq_some_iff.mp hread
      obtain rfl := eq_of_required helement rfl helement'
      obtain rfl := eq_of_required readsBack_uint32.eq_of_read rfl hlength'
      exact (Option.some.inj hresult).symm
  | _ =>
    cases depth with
    | zero => cases h
    | succ depth => exact (Option.some.inj h).symm

theorem readsBack : ReadsBack ofJson? toJson where
  isPlain := isPlain_toJson
  eq_of_read := eq_of_ofJsonWithin?

end SemanticType

theorem Field.readsBack : ReadsBack Field.ofJson? Field.toJson where
  isPlain f := by
    simp [toJson, Json.isPlain, membersPlain, f.semanticType.isPlain_toJson, ofUInt32]
  eq_of_read {f room v} h := by
    have hread := of_record? (by rfl) (by decide) h
    obtain ⟨name, hname, hread⟩ := Option.bind_eq_some_iff.mp hread
    obtain ⟨semanticType, htype, hread⟩ := Option.bind_eq_some_iff.mp hread
    obtain ⟨slotIndex, hslot, hread⟩ := Option.bind_eq_some_iff.mp hread
    obtain ⟨byteWidth, hwidth, hread⟩ := Option.bind_eq_some_iff.mp hread
    obtain rfl := eq_of_required readsBack_string.eq_of_read rfl hname
    obtain rfl := eq_of_required SemanticType.readsBack.eq_of_read rfl htype
    obtain rfl := eq_of_required readsBack_natural.eq_of_read rfl hslot
    obtain rfl := eq_of_required readsBack_uint32.eq_of_read rfl hwidth
    exact (Option.some.inj hread).symm

theorem readsBack_fieldsToJson :
    ReadsBack (list? Field.ofJson?) fieldsToJson := Json.readsBack_list Field.readsBack

theorem Schema.readsBack : ReadsBack Schema.ofJson? Schema.toJson where
  isPlain s := by
    simp [toJson, Json.isPlain, membersPlain, readsBack_fieldsToJson.isPlain, ofUInt32]
  eq_of_read {s room v} h := by
    have hread := of_record? (by rfl) (by decide) h
    obtain ⟨name, hname, hread⟩ := Option.bind_eq_some_iff.mp hread
    obtain ⟨version, hversion, hread⟩ := Option.bind_eq_some_iff.mp hread
    obtain ⟨fields, hfields, hread⟩ := Option.bind_eq_some_iff.mp hread
    obtain rfl := eq_of_required readsBack_string.eq_of_read rfl hname
    obtain rfl := eq_of_required readsBack_uint32.eq_of_read rfl hversion
    obtain rfl := eq_of_required readsBack_fieldsToJson.eq_of_read rfl hfields
    exact (Option.some.inj hread).symm

theorem UpgradeRecord.readsBack : ReadsBack UpgradeRecord.ofJson? UpgradeRecord.toJson where
  isPlain u := by
    simp [toJson, Json.isPlain, membersPlain, readsBack_fieldsToJson.isPlain, ofUInt32]
  eq_of_read {u room v} h := by
    have hread := of_record? (by rfl) (by decide) h
    obtain ⟨fromName, hfromName, hread⟩ := Option.bind_eq_some_iff.mp hread
    obtain ⟨fromVersion, hfromVersion, hread⟩ := Option.bind_eq_some_iff.mp hread
    obtain ⟨toName, htoName, hread⟩ := Option.bind_eq_some_iff.mp hread
    obtain ⟨toVersion, htoVersion, hread⟩ := Option.bind_eq_some_iff.mp hread
    obtain ⟨fields, hfields, hread⟩ := Option.bind_eq_some_iff.mp hread
    obtain rfl := eq_of_required readsBack_string.eq_of_read rfl hfromName
    obtain rfl := eq_of_required readsBack_uint32.eq_of_read rfl hfromVersion
    obtain rfl := eq_of_required readsBack_string.eq_of_read rfl htoName
    obtain rfl := eq_of_required readsBack_uint32.eq_of_read rfl htoVersion
    obtain rfl := eq_of_required readsBack_fieldsToJson.eq_of_read rfl hfields
    exact (Option.some.inj hread).symm

/-- **The image of a ledger is read back.** -/
theorem LedgerImage.readsBack : ReadsBack LedgerImage.ofJson? LedgerImage.toJson where
  isPlain i := by
    have hhistory := arePlain_map UpgradeRecord.readsBack i.history
    have hwords := arePlain_map StorageWord.readsBack i.words
    simp [toJson, Json.isPlain, membersPlain, Schema.readsBack.isPlain, hhistory, hwords]
  eq_of_read {i room v} h := by
    have hread := of_record? (by rfl) (by decide) h
    obtain ⟨implementation, himplementation, hread⟩ := Option.bind_eq_some_iff.mp hread
    obtain ⟨upgradeable, hupgradeable, hread⟩ := Option.bind_eq_some_iff.mp hread
    obtain ⟨schema, hschema, hread⟩ := Option.bind_eq_some_iff.mp hread
    obtain ⟨history, hhistory, hread⟩ := Option.bind_eq_some_iff.mp hread
    obtain ⟨words, hwords, hread⟩ := Option.bind_eq_some_iff.mp hread
    obtain rfl := eq_of_required readsBack_string.eq_of_read rfl himplementation
    obtain rfl := eq_of_required readsBack_bool.eq_of_read rfl hupgradeable
    obtain rfl := eq_of_required Schema.readsBack.eq_of_read rfl hschema
    obtain rfl := eq_of_required (readsBack_list UpgradeRecord.readsBack).eq_of_read rfl hhistory
    obtain rfl := eq_of_required (readsBack_list StorageWord.readsBack).eq_of_read rfl hwords
    exact (Option.some.inj hread).symm

/-- **A snapshot is read back.** -/
theorem Snapshot.readsBack : ReadsBack Snapshot.ofJson? Snapshot.toJson where
  isPlain s := by simp [toJson, Json.isPlain, membersPlain, ofUInt32]
  eq_of_read {s room v} h := by
    have hread := of_record? (by rfl) (by decide) h
    obtain ⟨sequence, hsequence, hread⟩ := Option.bind_eq_some_iff.mp hread
    obtain ⟨version, hversion, hread⟩ := Option.bind_eq_some_iff.mp hread
    obtain ⟨fingerprint, hfingerprint, hread⟩ := Option.bind_eq_some_iff.mp hread
    obtain ⟨content, hcontent, hread⟩ := Option.bind_eq_some_iff.mp hread
    obtain ⟨digest, hdigest, hread⟩ := Option.bind_eq_some_iff.mp hread
    obtain rfl := eq_of_required readsBack_natural.eq_of_read rfl hsequence
    obtain rfl := eq_of_required readsBack_uint32.eq_of_read rfl hversion
    obtain rfl := eq_of_required readsBack_string.eq_of_read rfl hfingerprint
    obtain rfl := eq_of_required readsBack_string.eq_of_read rfl hcontent
    obtain rfl := eq_of_required readsBack_string.eq_of_read rfl hdigest
    exact (Option.some.inj hread).symm

end SlotLedger
