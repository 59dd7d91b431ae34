import Mathlib.Algebra.Group.Nat.Defs
import SlotLedger.Wire.Field

/-!
# Fields are read back

A number below 2^64 is read back from its groups of seven bits, and so is a field from its octets,
whatever follows it.  Only the two kinds of value that are ever written occur: numbers and octets.

## Main definitions

* `Wire.Field.IsWritten`: a field that the writer produces

## Main results

* `Wire.readVarint_varint`, `Wire.readField_encode`: what is written is read back
* `Wire.decode_encode`: the fields of a message are read back
-/

namespace SlotLedger.Wire

/-! ## Varints -/

theorem toNat_ofNat_of_lt {n : Nat} (hn : n < 256) : (UInt8.ofNat n).toNat = n := by
  rw [UInt8.toNat_ofNat']
  exact Nat.mod_eq_of_lt hn

/-- The groups before the last hold seven bits each, and the last one, if it is the tenth, one. -/
theorem readGroups_varintGroups (more : Nat) {n : Nat} (hn : n < 2 * 128 ^ more) (rest : Bytes) :
    readGroups (more + 1) (varintGroups more n ++ rest) = some (n, rest) := by
  -- On the groups that may come before the last.
  induction more generalizing n with
  | zero =>
    have hsmall : n < 2 := by omega
    rw [varintGroups, List.singleton_append, readGroups, toNat_ofNat_of_lt (by omega),
      if_pos (by omega), if_neg (by omega)]
  | succ more ih =>
    rw [varintGroups]
    split
    · rw [List.singleton_append, readGroups, toNat_ofNat_of_lt (by omega), if_pos (by omega),
        if_neg (by omega)]
    · have hhigh : n / 128 < 2 * 128 ^ more := by
        rw [Nat.div_lt_iff_lt_mul (by decide), Nat.mul_assoc, ← Nat.pow_succ]
        exact hn
      have hgroup : n % 128 + 128 < 256 := by omega
      rw [List.cons_append, readGroups, toNat_ofNat_of_lt hgroup, if_neg (by omega), ih hhigh]
      have hwhole : n % 128 + 128 - 128 + 128 * (n / 128) = n := by omega
      simp only [Option.bind_eq_bind, Option.bind_some, hwhole]

/-- **A number is read back**, whatever follows it. -/
theorem readVarint_varint {n : Nat} (hn : n < 2 ^ 64) (rest : Bytes) :
    readVarint (varint n ++ rest) = some (n, rest) :=
  readGroups_varintGroups 9 hn rest

theorem varint_ne_nil (n : Nat) : varint n ≠ [] := by
  rw [varint, varintGroups]
  split <;> simp

theorem length_varintGroups_le (more n : Nat) : (varintGroups more n).length ≤ more + 1 := by
  induction more generalizing n with
  | zero => exact Nat.le_refl 1
  | succ more ih =>
    rw [varintGroups]
    split
    · exact Nat.le_add_left 1 _
    · rw [List.length_cons]
      exact Nat.succ_le_succ (ih _)

theorem length_varint_le (n : Nat) : (varint n).length ≤ 10 := length_varintGroups_le 9 n

/-! ## Fields -/

/-- A field that the writer produces: its key fits, and its value is a number of 64 bits or
octets. -/
structure Field.IsWritten (f : Field) : Prop where
  positive : 0 < f.number
  key : f.number < 2 ^ 29
  value : (∃ n < 2 ^ 64, f.value = .varint n) ∨ ∃ octets, f.value = .delimited octets

theorem Field.length_le_length_encode {f : Field} {octets : Bytes}
    (hvalue : f.value = .delimited octets) : octets.length ≤ f.encode.length := by
  rw [Field.encode, hvalue]
  simp only [List.length_append]
  omega

/-- What stands before the octets of a field is short. -/
theorem Field.length_encode_delimited_le (number : Nat) (octets : Bytes) :
    (Field.encode ⟨number, .delimited octets⟩).length ≤ 20 + octets.length := by
  have hkey := length_varint_le (8 * number + (Value.delimited octets).wireType)
  have hcount := length_varint_le octets.length
  simp only [Field.encode, key, List.length_append]
  omega

theorem Field.length_encode_varint_le (number n : Nat) :
    (Field.encode ⟨number, .varint n⟩).length ≤ 20 := by
  have hkey := length_varint_le (8 * number + (Value.varint n).wireType)
  have hvalue := length_varint_le n
  simp only [Field.encode, key, List.length_append]
  omega

theorem Value.wireType_lt (v : Value) : v.wireType < 8 := by
  cases v <;> simp [wireType]

theorem readKey_key {number wireType : Nat} (hpositive : 0 < number) (hnumber : number < 2 ^ 29)
    (htype : wireType < 8) (rest : Bytes) :
    readKey (key number wireType ++ rest) = some (number, wireType, rest) := by
  have hsize : UInt32.size = 2 ^ 32 := rfl
  have hquotient : (8 * number + wireType) / 8 = number := by omega
  have hremainder : (8 * number + wireType) % 8 = wireType := by omega
  rw [readKey, key, readVarint_varint (by omega)]
  simp only [Option.bind_eq_bind, Option.bind_some, hquotient, hremainder]
  exact if_pos (by omega)

theorem readOctets_append (octets rest : Bytes) :
    readOctets octets.length (octets ++ rest) = some (octets, rest) := by
  rw [readOctets, if_pos (by simp), List.take_left, List.drop_left]

/-- **A field is read back**, whatever follows it, if the count of its octets is a number of 64
bits. -/
theorem readField_encode (room : Nat) {f : Field} (hf : f.IsWritten)
    (hshort : f.encode.length < 2 ^ 64) (rest : Bytes) :
    readField room (f.encode ++ rest) = some (f, rest) := by
  have hoctets : ∀ octets, f.value = .delimited octets → octets.length < 2 ^ 64 :=
    fun _ hvalue => Nat.lt_of_le_of_lt (Field.length_le_length_encode hvalue) hshort
  obtain ⟨number, value⟩ := f
  obtain ⟨hpositive, hkey, hvalue⟩ := hf
  rw [Field.encode, List.append_assoc, readField, readKey_key hpositive hkey value.wireType_lt]
  rcases hvalue with ⟨n, hn, rfl⟩ | ⟨octets, rfl⟩
  · simp [readScalar, Value.wireType, readVarint_varint hn]
  · simp [readScalar, Value.wireType, readVarint_varint (hoctets octets rfl), readOctets_append]

theorem Field.encode_ne_nil (f : Field) : f.encode ≠ [] := by
  rw [Field.encode, key]
  simp [varint_ne_nil]

/-! ## Messages -/

theorem encode_cons (f : Field) (fields : List Field) :
    encode (f :: fields) = f.encode ++ encode fields := List.flatMap_cons

theorem encode_append (first later : List Field) :
    encode (first ++ later) = encode first ++ encode later := List.flatMap_append

theorem length_encode_append_le {first later : List Field} {m n : Nat}
    (hfirst : (encode first).length ≤ m) (hlater : (encode later).length ≤ n) :
    (encode (first ++ later)).length ≤ m + n := by
  rw [encode_append, List.length_append]
  exact Nat.add_le_add hfirst hlater

/-- Every field takes octets. -/
theorem length_le_length_encode (fields : List Field) : fields.length ≤ (encode fields).length := by
  induction fields with
  | nil => exact Nat.le_refl _
  | cons f rest ih =>
    have hf := List.length_pos_iff.mpr f.encode_ne_nil
    rw [encode_cons, List.length_append, List.length_cons]
    omega

theorem decodeFrom_succ (room fuel : Nat) {bytes : Bytes} (hbytes : bytes ≠ []) :
    decodeFrom room (fuel + 1) bytes =
      (readField room bytes).bind fun p => (decodeFrom room fuel p.2).map (p.1 :: ·) := by
  obtain ⟨b, rest, rfl⟩ := List.exists_cons_of_ne_nil hbytes
  rfl

/-- No field has more octets than its message. -/
theorem length_encode_le_of_mem {f : Field} {fields : List Field} (hf : f ∈ fields) :
    f.encode.length ≤ (encode fields).length := by
  induction fields with
  | nil => cases hf
  | cons g rest ih =>
    rw [encode_cons, List.length_append]
    rcases List.mem_cons.mp hf with rfl | hmem
    · exact Nat.le_add_right _ _
    · exact Nat.le_trans (ih hmem) (Nat.le_add_left _ _)

theorem decodeFrom_encode (room : Nat) {fields : List Field}
    (hfields : ∀ f ∈ fields, f.IsWritten ∧ f.encode.length < 2 ^ 64) {fuel : Nat}
    (hfuel : fields.length ≤ fuel) : decodeFrom room fuel (encode fields) = some fields := by
  induction fields generalizing fuel with
  | nil => rw [encode, List.flatMap_nil, decodeFrom]
  | cons f rest ih =>
    obtain ⟨⟨hf, hshort⟩, hrest⟩ := List.forall_mem_cons.mp hfields
    have hoctets : encode (f :: rest) ≠ [] := by simp [encode_cons, f.encode_ne_nil]
    cases fuel with
    | zero => simp at hfuel
    | succ fuel =>
      rw [decodeFrom_succ room fuel hoctets, encode_cons, readField_encode room hf hshort,
        Option.bind_some, ih hrest (by simpa using hfuel), Option.map_some]

/-- **The fields of a message are read back.** -/
theorem decode_encode (room : Nat) {fields : List Field} (hfields : ∀ f ∈ fields, f.IsWritten)
    (hshort : (encode fields).length < 2 ^ 64) : decode room (encode fields) = some fields := by
  refine decodeFrom_encode room (fun f hf => ⟨hfields f hf, ?_⟩) (length_le_length_encode fields)
  exact Nat.lt_of_le_of_lt (length_encode_le_of_mem hf) hshort

end SlotLedger.Wire
