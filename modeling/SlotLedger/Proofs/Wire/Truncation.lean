import SlotLedger.Proofs.Wire.Records

/-!
# Messages that were cut

What a reader of numbers, keys and values takes from the beginning of some octets it also takes
when more octets follow.  So the beginning of a field is no field, and what is left of a message
that was cut is its first fields or no message at all.

## Main results

* `Wire.readVarint_more`, `Wire.readKey_more`, `Wire.readScalar_more`: readers do not look ahead
* `Wire.readField_eq_none_of_isPrefix`: the beginning of a field is not read
* `Wire.decode_of_isPrefix`: what is read from the beginning of a message
* `LogEntry.decode?_of_isPrefix`: what is read from the beginning of a record
-/

namespace SlotLedger

namespace Wire

/-! ## Readers do not look ahead -/

section More

variable {bytes rest : Bytes} (more : Bytes)

theorem readGroups_more {groups n : Nat} (h : readGroups groups bytes = some (n, rest)) :
    readGroups groups (bytes ++ more) = some (n, rest ++ more) := by
  induction groups generalizing bytes n with
  | zero => simp [readGroups] at h
  | succ groups ih =>
    cases bytes with
    | nil => simp [readGroups] at h
    | cons b later =>
      rw [readGroups] at h
      rw [List.cons_append, readGroups]
      split
      · rw [if_pos ‹_›] at h
        split
        · rw [if_pos ‹_›] at h
          cases h
        · rw [if_neg ‹_›] at h
          cases h
          rfl
      · rw [if_neg ‹_›] at h
        obtain ⟨⟨high, after⟩, hhigh, heq⟩ := Option.bind_eq_some_iff.mp h
        cases heq
        rw [ih hhigh]
        rfl

theorem readVarint_more {n : Nat} (h : readVarint bytes = some (n, rest)) :
    readVarint (bytes ++ more) = some (n, rest ++ more) :=
  readGroups_more more h

theorem readKey_more {number wireType : Nat}
    (h : readKey bytes = some (number, wireType, rest)) :
    readKey (bytes ++ more) = some (number, wireType, rest ++ more) := by
  obtain ⟨⟨key, after⟩, hkey, h⟩ := Option.bind_eq_some_iff.mp h
  rw [readKey, readVarint_more more hkey]
  dsimp only [Option.bind_eq_bind, Option.bind_some] at h ⊢
  split
  · rw [if_pos ‹_›] at h
    cases h
    rfl
  · rw [if_neg ‹_›] at h
    cases h

theorem readOctets_more {count : Nat} {octets : Bytes}
    (h : readOctets count bytes = some (octets, rest)) :
    readOctets count (bytes ++ more) = some (octets, rest ++ more) := by
  rw [readOctets] at h
  split at h
  · rename_i hcount
    cases h
    have hmore : count ≤ (bytes ++ more).length := by
      rw [List.length_append]
      exact Nat.le_add_right_of_le hcount
    rw [readOctets, if_pos hmore, List.take_append_of_le_length hcount,
      List.drop_append_of_le_length hcount]
  · cases h

theorem readScalar_more {wireType : Nat} {v : Value}
    (h : readScalar wireType bytes = some (v, rest)) :
    readScalar wireType (bytes ++ more) = some (v, rest ++ more) := by
  unfold readScalar at h ⊢
  split at h
  · obtain ⟨⟨n, after⟩, hn, heq⟩ := Option.map_eq_some_iff.mp h
    cases heq
    rw [readVarint_more more hn]
    rfl
  · obtain ⟨⟨octets, after⟩, hoctets, heq⟩ := Option.map_eq_some_iff.mp h
    cases heq
    rw [readOctets_more more hoctets]
    rfl
  · obtain ⟨⟨count, later⟩, hcount, h⟩ := Option.bind_eq_some_iff.mp h
    obtain ⟨⟨octets, after⟩, hoctets, heq⟩ := Option.bind_eq_some_iff.mp h
    cases heq
    simp only [readVarint_more more hcount, readOctets_more more hoctets, Option.bind_eq_bind,
      Option.bind_some]
  · obtain ⟨⟨octets, after⟩, hoctets, heq⟩ := Option.map_eq_some_iff.mp h
    cases heq
    rw [readOctets_more more hoctets]
    rfl
  · cases h

end More

/-! ## Fields and messages -/

/-- **The beginning of a field is not read.** -/
theorem readField_eq_none_of_isPrefix (room : Nat) {f : Field} (hf : f.IsWritten)
    (hshort : f.encode.length < 2 ^ 64) {stored : Bytes} (hstored : stored <+: f.encode)
    (hcut : stored.length < f.encode.length) : readField room stored = none := by
  obtain ⟨more, hmore⟩ := hstored
  have hwhole := readField_encode room hf hshort []
  rw [List.append_nil, ← hmore] at hwhole
  have hne : more ≠ [] := by
    rintro rfl
    rw [← hmore, List.append_nil] at hcut
    exact absurd hcut (Nat.lt_irrefl _)
  unfold readField at hwhole ⊢
  cases hkey : readKey stored with
  | none => rfl
  | some found =>
    -- The key is whole, so it is that of the field, and the value is no group.
    obtain ⟨number, wireType, rest⟩ := found
    rw [readKey_more more hkey] at hwhole
    have htype : wireType ≠ 3 := by
      have hread := readKey_more more hkey
      rw [hmore, Field.encode, readKey_key hf.positive hf.key f.value.wireType_lt] at hread
      simp only [Option.some.injEq, Prod.mk.injEq] at hread
      obtain ⟨-, htype, -⟩ := hread
      rcases hf.value with ⟨n, -, hvalue⟩ | ⟨octets, hvalue⟩ <;>
        simp [← htype, hvalue, Value.wireType]
    simp only [Option.bind_eq_bind, Option.bind_some, if_neg htype] at hwhole ⊢
    cases hvalue : readScalar wireType rest with
    | none => rfl
    | some found =>
      obtain ⟨v, after⟩ := found
      rw [readScalar_more more hvalue] at hwhole
      simp [hne] at hwhole

theorem decodeFrom_of_isPrefix (room : Nat) {fields : List Field}
    (hfields : ∀ f ∈ fields, f.IsWritten ∧ f.encode.length < 2 ^ 64) {stored : Bytes}
    (hstored : stored <+: encode fields) {fuel : Nat} (hfuel : stored.length ≤ fuel) :
    (∃ k, stored = encode (fields.take k)) ∨ decodeFrom room fuel stored = none := by
  -- On the fields in order: the cut is within the first of them, or behind it.
  induction fields generalizing stored fuel with
  | nil => exact .inl ⟨0, List.prefix_nil.mp hstored⟩
  | cons f later ih =>
    obtain ⟨⟨hf, hshort⟩, hlater⟩ := List.forall_mem_cons.mp hfields
    by_cases hnil : stored = []
    · exact .inl ⟨0, hnil⟩
    have hpositive : 0 < stored.length := List.length_pos_iff.mpr hnil
    obtain ⟨fuel, rfl⟩ : ∃ fuel', fuel = fuel' + 1 := Nat.exists_eq_add_one.mpr (by omega)
    rw [encode_cons] at hstored
    rw [decodeFrom_succ room fuel hnil]
    by_cases hwhole : f.encode.length ≤ stored.length
    · obtain ⟨rest, rfl⟩ := List.prefix_of_prefix_length_le (List.prefix_append _ _) hstored hwhole
      have hf_pos := List.length_pos_iff.mpr f.encode_ne_nil
      rw [List.length_append] at hfuel
      rw [readField_encode room hf hshort, Option.bind_some]
      obtain ⟨k, hk⟩ | hnone :=
        ih hlater ((List.prefix_append_right_inj _).mp hstored) (show _ ≤ fuel by omega)
      · refine .inl ⟨k + 1, ?_⟩
        rw [List.take_succ_cons, encode_cons, ← hk]
      · exact .inr (by rw [hnone]; rfl)
    · have hbegin := List.prefix_of_prefix_length_le hstored (List.prefix_append _ _)
        (Nat.le_of_not_le hwhole)
      rw [readField_eq_none_of_isPrefix room hf hshort hbegin (Nat.lt_of_not_le hwhole)]
      exact .inr rfl

/-- **What is left of a message that was cut** is its first fields, or no message. -/
theorem decode_of_isPrefix (room : Nat) {fields : List Field} (hfields : ∀ f ∈ fields, f.IsWritten)
    (hshort : (encode fields).length < 2 ^ 64) {stored : Bytes}
    (hstored : stored <+: encode fields) :
    (∃ k, stored = encode (fields.take k)) ∨ decode room stored = none := by
  refine decodeFrom_of_isPrefix room (fun f hf => ⟨hfields f hf, ?_⟩) hstored (Nat.le_refl _)
  exact Nat.lt_of_le_of_lt (length_encode_le_of_mem hf) hshort

end Wire

/-! ## Records -/

namespace LogEntry

/-- The beginning of a record's octets is none of them, its number alone, or no message. -/
theorem decode?_of_isPrefix {e : LogEntry} (hshort : e.encode.length < 2 ^ 64) {stored : Bytes}
    (hstored : stored <+: e.encode) (hcut : stored.length < e.encode.length) :
    stored = [] ∨ stored = Wire.encode (Wire.natField 1 e.sequence.toNat) ∨
      RecordMessage.decode? stored = none := by
  obtain ⟨k, hk⟩ | hnone := Wire.decode_of_isPrefix Wire.maxNesting
    e.toMessage.isWritten_of_mem_fields hshort hstored
  · have hfields : e.toMessage.fields = Wire.natField 1 e.sequence.toNat ++
        [⟨(recordKind e.record).number,
          .delimited (Wire.encode (recordKind e.record).fields)⟩] := rfl
    have hcount : (Wire.natField 1 e.sequence.toNat).length ≤ 1 := by
      unfold Wire.natField
      split <;> simp
    rw [hfields] at hk
    by_cases hwhole : (Wire.natField 1 e.sequence.toNat).length < k
    · -- All fields are there, so nothing was cut.
      have hall : (e.toMessage.fields).length ≤ k := by
        rw [hfields, List.length_append]
        exact hwhole
      rw [← hfields, List.take_of_length_le hall] at hk
      rw [hk] at hcut
      exact absurd hcut (Nat.lt_irrefl _)
    rw [List.take_append_of_le_length (Nat.le_of_not_lt hwhole)] at hk
    cases k with
    | zero => exact .inl hk
    | succ k =>
      rw [List.take_of_length_le (by omega)] at hk
      exact .inr (.inl hk)
  · refine .inr (.inr ?_)
    rw [RecordMessage.decode?, hnone]
    rfl

end LogEntry

end SlotLedger
