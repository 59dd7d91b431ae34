import SlotLedger.Proofs.Document.Depth

/-!
# Strict reading

A strict reader gives up where a lenient one goes on with a part that has no value.  Where there is
no such part, both read the same; so a document that was printed is read strictly as it is read
leniently, if it does not nest too deep.

## Main results

* `Json.readValue_strict`: what is read without unreadable parts is read strictly
* `Json.parseStrict?_of_parse?`: the same of whole texts
* `Json.parseStrict?_compact`: documents are read strictly from their texts
-/

namespace SlotLedger.Json

/-- Either reader keeps what is readable. -/
theorem keep?_bind_eq_some_iff (reading : Reading) {k j : Json} (hj : j.isReadable = true)
    {rest after : List Char} :
    ((reading.keep? k).bind fun k => some (k, rest)) = some (j, after) ↔ k = j ∧ rest = after := by
  cases k with
  | unreadable =>
    have hne : .unreadable ≠ j := by
      rintro rfl
      cases hj
    cases reading <;> simp [Reading.keep?, hne]
  | _ => cases reading <;> simp [Reading.keep?]

theorem isReadable_of_contained {room : Nat} {j : Json}
    (h : (contained room j).isReadable = true) : j.isReadable = true := by
  unfold contained at h
  split at h
  · cases h
  · exact h

theorem membersReadable_iff {members : List (String × Json)} :
    membersReadable members = true ↔ ∀ m ∈ members, m.2.isReadable = true := by
  induction members with
  | nil => simp [membersReadable]
  | cons m rest ih => rw [membersReadable, Bool.and_eq_true, ih, List.forall_mem_cons]

/-- A readable object has readable members. -/
theorem forall_isReadable_of_ofMembers {members : List (Option String × Json)}
    (h : (ofMembers members).isReadable = true) : ∀ m ∈ members, m.2.isReadable = true := by
  rw [ofMembers] at h
  split at h
  · rename_i named hnamed
    -- An object in which every key has a value has the members that were found.
    have hreadable := membersReadable_iff.mp h
    clear h
    induction members generalizing named with
    | nil => exact List.forall_mem_nil _
    | cons m rest ih =>
      rw [List.mapM_cons] at hnamed
      obtain ⟨first, hfirst, hnamed⟩ := Option.bind_eq_some_iff.mp hnamed
      obtain ⟨later, hlater, hnamed⟩ := Option.bind_eq_some_iff.mp hnamed
      obtain rfl := Option.some.inj hnamed
      obtain ⟨key, -, rfl⟩ := Option.map_eq_some_iff.mp hfirst
      obtain ⟨hm, hrest⟩ := List.forall_mem_cons.mp hreadable
      exact List.forall_mem_cons.mpr ⟨hm, ih later hlater hrest⟩
  · cases h

/-- Reading a member and what is left to be read after it. -/
theorem readMembers_of_member {reading : Reading} {fuel room : Nat}
    {text keyText afterKey valueText afterValue : List Char} {key : Option String} {value : Json}
    (hquote : skipSpace text = '"' :: keyText) (hkey : readString keyText = some (key, afterKey))
    (hcolon : skipSpace afterKey = ':' :: valueText)
    (hvalue : readValue reading fuel room valueText = some (value, afterValue)) :
    readMembers reading (fuel + 1) room text =
      match skipSpace afterValue with
      | '\x7d' :: after => some ([(key, value)], after)
      | ',' :: rest =>
        (readMembers reading fuel room rest).bind fun p => some ((key, value) :: p.1, p.2)
      | _ => none := by
  rw [readMembers, hquote]
  change (readString keyText).bind _ = _
  rw [hkey, Option.bind_some]
  dsimp only
  rw [hcolon]
  change (readValue reading fuel room valueText).bind _ = _
  rw [hvalue]
  rfl

-- The strict reader calls itself where the lenient one does, with less fuel.
mutual

/-- **What is read without unreadable parts is read strictly.** -/
theorem readValue_strict (fuel room : Nat) (text : List Char) {j : Json} {after : List Char}
    (h : readValue .lenient fuel room text = some (j, after)) (hj : j.isReadable = true) :
    readValue .strict fuel room text = some (j, after) := by
  match fuel with
  | 0 => cases h
  | fuel + 1 =>
    have hlenient := @keep?_bind_eq_some_iff .lenient
    have hstrict := @keep?_bind_eq_some_iff .strict
    rw [readValue] at h ⊢
    generalize skipSpace text = t at h ⊢
    -- A word is read alike; anything else is kept where it has a value.
    split at h
    case h_1 | h_2 | h_3 => exact h
    case h_4 rest =>
      obtain ⟨⟨text?, later⟩, htext, hkept⟩ := Option.bind_eq_some_iff.mp h
      have hread := (hlenient hj).mp hkept
      exact Option.bind_eq_some_iff.mpr ⟨_, htext, (hstrict hj).mpr hread⟩
    case h_5 rest =>
      dsimp only
      split at h
      · exact (hstrict hj).mpr ((hlenient hj).mp h)
      · obtain ⟨⟨items, later⟩, hitems, hkept⟩ := Option.bind_eq_some_iff.mp h
        obtain ⟨rfl, rfl⟩ := (hlenient hj).mp hkept
        have hread := readItems_strict fuel (room - 1) rest hitems (isReadable_of_contained hj)
        exact Option.bind_eq_some_iff.mpr ⟨_, hread, (hstrict hj).mpr ⟨rfl, rfl⟩⟩
    case h_6 rest =>
      dsimp only
      split at h
      · exact (hstrict hj).mpr ((hlenient hj).mp h)
      · obtain ⟨⟨members, later⟩, hmembers, hkept⟩ := Option.bind_eq_some_iff.mp h
        obtain ⟨rfl, rfl⟩ := (hlenient hj).mp hkept
        have hreadable := forall_isReadable_of_ofMembers (isReadable_of_contained hj)
        have hread := readMembers_strict fuel (room - 1) rest hmembers hreadable
        exact Option.bind_eq_some_iff.mpr ⟨_, hread, (hstrict hj).mpr ⟨rfl, rfl⟩⟩
    case h_7 =>
      obtain ⟨⟨number, later⟩, hnumber, hkept⟩ := Option.bind_eq_some_iff.mp h
      have hread := (hlenient hj).mp hkept
      exact Option.bind_eq_some_iff.mpr ⟨_, hnumber, (hstrict hj).mpr hread⟩

theorem readItems_strict (fuel room : Nat) (text : List Char) {items : List Json}
    {after : List Char} (h : readItems .lenient fuel room text = some (items, after))
    (hitems : areReadable items = true) :
    readItems .strict fuel room text = some (items, after) := by
  match fuel with
  | 0 => cases h
  | fuel + 1 =>
    rw [readItems] at h ⊢
    cases hvalue : readValue .lenient fuel room text with
    | none =>
      rw [hvalue] at h
      cases h
    | some read =>
      obtain ⟨item, afterItem⟩ := read
      rw [hvalue] at h
      dsimp only at h
      split at h
      · rename_i rest hspace
        obtain ⟨rfl, rfl⟩ := Prod.mk.inj (Option.some.inj h)
        rw [areReadable, Bool.and_eq_true] at hitems
        rw [readValue_strict fuel room text hvalue hitems.1]
        dsimp only
        rw [hspace]
        rfl
      · rename_i rest hspace
        obtain ⟨⟨later, tail⟩, hlater, heq⟩ := Option.bind_eq_some_iff.mp h
        obtain ⟨rfl, rfl⟩ := Prod.mk.inj (Option.some.inj heq)
        rw [areReadable, Bool.and_eq_true] at hitems
        rw [readValue_strict fuel room text hvalue hitems.1]
        dsimp only
        rw [hspace]
        exact Option.bind_eq_some_iff.mpr ⟨_, readItems_strict fuel room rest hlater hitems.2, rfl⟩
      · cases h

theorem readMembers_strict (fuel room : Nat) (text : List Char)
    {members : List (Option String × Json)} {after : List Char}
    (h : readMembers .lenient fuel room text = some (members, after))
    (hmembers : ∀ m ∈ members, m.2.isReadable = true) :
    readMembers .strict fuel room text = some (members, after) := by
  match fuel with
  | 0 => cases h
  | fuel + 1 =>
    rw [readMembers] at h
    split at h
    · rename_i rest hquote
      obtain ⟨⟨key, afterKey⟩, hkey, h⟩ := Option.bind_eq_some_iff.mp h
      dsimp only at h
      split at h
      · rename_i rest' hcolon
        obtain ⟨⟨value, afterValue⟩, hvalue, h⟩ := Option.bind_eq_some_iff.mp h
        dsimp only at h
        split at h
        · rename_i last hbrace
          obtain ⟨rfl, rfl⟩ := Prod.mk.inj (Option.some.inj h)
          have hreadable := hmembers _ (List.mem_singleton_self _)
          have hread := readValue_strict fuel room rest' hvalue hreadable
          rw [readMembers_of_member hquote hkey hcolon hread, hbrace]
          rfl
        · rename_i last hcomma
          obtain ⟨⟨later, tail⟩, hlater, heq⟩ := Option.bind_eq_some_iff.mp h
          obtain ⟨rfl, rfl⟩ := Prod.mk.inj (Option.some.inj heq)
          obtain ⟨hreadable, hrest⟩ := List.forall_mem_cons.mp hmembers
          have hread := readValue_strict fuel room rest' hvalue hreadable
          have hmore := readMembers_strict fuel room last hlater hrest
          rw [readMembers_of_member hquote hkey hcolon hread, hcomma]
          exact Option.bind_eq_some_iff.mpr ⟨_, hmore, rfl⟩
        · cases h
      · cases h
    · cases h

end

/-- **A text without unreadable parts is read strictly** as it is read leniently. -/
theorem parseStrict?_of_parse? {text : String} {j : Json} (h : parse? text = some j)
    (hj : j.isReadable = true) : parseStrict? text = some j := by
  obtain ⟨⟨document, after⟩, hread, hend⟩ := Option.bind_eq_some_iff.mp h
  have hsame : document = j := by
    dsimp only at hend
    split at hend
    · exact Option.some.inj hend
    · cases hend
  subst hsame
  exact Option.bind_eq_some_iff.mpr ⟨_, readValue_strict _ _ _ hread hj, hend⟩

mutual

/-- Whatever is plain is readable. -/
theorem isReadable_of_isPlain (j : Json) (h : j.isPlain = true) : j.isReadable = true := by
  match j with
  | .array items => exact areReadable_of_arePlain items h
  | .object members => exact membersReadable_of_membersPlain members h
  | .null | .bool _ | .natural _ | .string _ => rfl

theorem areReadable_of_arePlain (items : List Json) (h : arePlain items = true) :
    areReadable items = true := by
  match items with
  | [] => rfl
  | item :: rest =>
    rw [arePlain, Bool.and_eq_true] at h
    rw [areReadable, Bool.and_eq_true]
    exact ⟨isReadable_of_isPlain item h.1, areReadable_of_arePlain rest h.2⟩

theorem membersReadable_of_membersPlain (members : List (String × Json))
    (h : membersPlain members = true) : membersReadable members = true := by
  match members with
  | [] => rfl
  | (key, value) :: rest =>
    rw [membersPlain, Bool.and_eq_true] at h
    rw [membersReadable, Bool.and_eq_true]
    exact ⟨isReadable_of_isPlain value h.1, membersReadable_of_membersPlain rest h.2⟩

end

/-- **A printed document is read strictly**, if it does not nest too deep. -/
theorem parseStrict?_compact {j : Json} (hplain : j.isPlain = true) (hdepth : j.depth ≤ maxDepth) :
    parseStrict? j.compact = some j := by
  have hread := parse?_compact hplain
  rw [toDepth_of_depth_le j hdepth] at hread
  exact parseStrict?_of_parse? hread (isReadable_of_isPlain j hplain)

end SlotLedger.Json
