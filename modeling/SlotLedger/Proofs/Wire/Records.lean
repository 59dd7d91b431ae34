import SlotLedger.Proofs.Wire.Fields
import SlotLedger.Wire.Record

/-!
# Records are read back

A field that is absent reads as empty, zero or false, so leaving out such values loses nothing.  A
message is read back from its fields, and a record from its message: its octets tell everything.
A count of octets is a number of 64 bits, which is enough for every text that can be in memory: a
record has few octets beside those of a name.

## Main results

* `RecordMessage.decode?_encode`: a message is read back from its octets
* `LogEntry.ofMessage_toMessage`: a record is read back from its message
* `LogEntry.length_encode_le`, `LogEntry.length_nameOctets_lt`: how many octets a record has
* `LogEntry.ofMessage_decode?_encode`: a record is read back from its octets
-/

namespace SlotLedger

namespace Wire

/-! ## Fields that may be absent -/

section Absent

variable {σ : Type} {take : σ → Field → Option σ} {s : σ} {number : Nat}

theorem foldlM_append_eq_some {first later : List Field} {t u : σ}
    (hfirst : first.foldlM take s = some t) (hlater : later.foldlM take t = some u) :
    (first ++ later).foldlM take s = some u := by
  rw [List.foldlM_append, hfirst]
  exact hlater

/-- Octets that are taken as they are and are empty at first are read back, absent or not. -/
theorem foldlM_bytesField {octets : Bytes} {g : Bytes → σ}
    (htake : ∀ o, take s ⟨number, .delimited o⟩ = some (g o)) (hblank : g [] = s) :
    (bytesField number octets).foldlM take s = some (g octets) := by
  -- An absent field leaves the state as it is, and the state is blank there.
  cases octets with
  | nil =>
    rw [hblank]
    rfl
  | cons b rest =>
    rw [bytesField, List.isEmpty_cons, if_neg (by simp), List.foldlM_cons, htake]
    rfl

theorem foldlM_textField {text : String} {g : String → σ}
    (htake : ∀ o, take s ⟨number, .delimited o⟩ = (Bytes.utf8? o).map g) (hblank : g "" = s) :
    (textField number text).foldlM take s = some (g text) := by
  rw [textField, bytesField]
  split
  · rename_i hempty
    -- Only the empty text has no octets.
    have htext : text = "" := Bytes.utf8_inj (List.isEmpty_iff.mp hempty)
    rw [htext, hblank]
    rfl
  · rw [List.foldlM_cons, htake, Bytes.utf8?_utf8]
    rfl

theorem foldlM_flagField {flag : Bool} {g : Bool → σ}
    (htake : ∀ n, take s ⟨number, .varint n⟩ = some (g (n != 0))) (hblank : g false = s) :
    (flagField number flag).foldlM take s = some (g flag) := by
  cases flag with
  | false =>
    rw [hblank]
    rfl
  | true =>
    have hfield : flagField number true = [⟨number, .varint 1⟩] := rfl
    rw [hfield, List.foldlM_cons, htake]
    rfl

end Absent

section Written

variable {number : Nat} (hpositive : 0 < number) (hkey : number < 2 ^ 29)

include hpositive hkey

theorem isWritten_of_mem_bytesField {octets : Bytes} :
    ∀ f ∈ bytesField number octets, f.IsWritten := by
  unfold bytesField
  split
  · exact List.forall_mem_nil _
  · exact List.forall_mem_singleton.mpr ⟨hpositive, hkey, .inr ⟨octets, rfl⟩⟩

theorem isWritten_of_mem_natField {n : Nat} (hn : n < 2 ^ 64) :
    ∀ f ∈ natField number n, f.IsWritten := by
  unfold natField
  split
  · exact List.forall_mem_nil _
  · exact List.forall_mem_singleton.mpr ⟨hpositive, hkey, .inl ⟨n, hn, rfl⟩⟩

end Written

/-! ## Lengths -/

theorem length_encode_bytesField_le (number : Nat) (octets : Bytes) :
    (encode (bytesField number octets)).length ≤ 20 + octets.length := by
  rw [bytesField]
  split
  · exact Nat.zero_le _
  · rw [encode, List.flatMap_singleton]
    exact Field.length_encode_delimited_le number octets

theorem length_encode_natField_le (number n : Nat) :
    (encode (natField number n)).length ≤ 20 := by
  rw [natField]
  split
  · exact Nat.zero_le _
  · rw [encode, List.flatMap_singleton]
    exact Field.length_encode_varint_le number n

/-- The octets of a field are in the field, also where it is absent. -/
theorem length_le_length_encode_bytesField (number : Nat) (octets : Bytes) :
    octets.length ≤ (encode (bytesField number octets)).length := by
  rw [bytesField]
  split
  · rename_i hempty
    rw [List.isEmpty_iff.mp hempty]
    exact Nat.zero_le _
  · rw [encode, List.flatMap_singleton]
    exact Field.length_le_length_encode rfl

end Wire

/-! ## Kinds -/

namespace RecordKind

open Wire

theorem isWritten_of_mem_fields (kind : RecordKind) : ∀ f ∈ kind.fields, f.IsWritten := by
  have hbytes : ∀ {number : Nat} {octets : Bytes}, 0 < number → number < 4 →
      ∀ f ∈ bytesField number octets, f.IsWritten :=
    fun hpositive hlow => isWritten_of_mem_bytesField hpositive (by omega)
  have hfirst : ∀ {octets : Bytes}, ∀ f ∈ bytesField 1 octets, f.IsWritten :=
    hbytes (by decide) (by decide)
  have hsecond : ∀ {octets : Bytes}, ∀ f ∈ bytesField 2 octets, f.IsWritten :=
    hbytes (by decide) (by decide)
  have hthird : ∀ {octets : Bytes}, ∀ f ∈ bytesField 3 octets, f.IsWritten :=
    hbytes (by decide) (by decide)
  have hflag : ∀ flag : Bool, ∀ f ∈ flagField 3 flag, f.IsWritten :=
    fun flag => isWritten_of_mem_natField (by decide) (by decide) (by cases flag <;> decide)
  cases kind <;> simp only [fields, textField, List.forall_mem_append]
  case deploy => exact ⟨⟨hfirst, hsecond⟩, hflag _⟩
  case mint | transfer | grantRole | revokeRole => exact ⟨⟨hfirst, hsecond⟩, hthird⟩
  case auditReport | renounceRole => exact ⟨hfirst, hsecond⟩
  case upgrade => exact hfirst

/-- **A kind is read back** from its fields. -/
theorem foldlM_take?_fields (kind : RecordKind) :
    ∃ blank, blank? kind.number = some blank ∧ kind.fields.foldlM take? blank = some kind := by
  cases kind <;> refine ⟨_, rfl, ?_⟩
  case deploy =>
    exact foldlM_append_eq_some (foldlM_append_eq_some (foldlM_textField (fun _ => rfl) rfl)
      (foldlM_bytesField (fun _ => rfl) rfl)) (foldlM_flagField (fun _ => rfl) rfl)
  case mint | transfer =>
    exact foldlM_append_eq_some (foldlM_append_eq_some (foldlM_bytesField (fun _ => rfl) rfl)
      (foldlM_bytesField (fun _ => rfl) rfl)) (foldlM_bytesField (fun _ => rfl) rfl)
  case grantRole | revokeRole =>
    exact foldlM_append_eq_some (foldlM_append_eq_some (foldlM_bytesField (fun _ => rfl) rfl)
      (foldlM_textField (fun _ => rfl) rfl)) (foldlM_bytesField (fun _ => rfl) rfl)
  case auditReport =>
    exact foldlM_append_eq_some (foldlM_bytesField (fun _ => rfl) rfl)
      (foldlM_bytesField (fun _ => rfl) rfl)
  case renounceRole =>
    exact foldlM_append_eq_some (foldlM_bytesField (fun _ => rfl) rfl)
      (foldlM_textField (fun _ => rfl) rfl)
  case upgrade => exact foldlM_textField (fun _ => rfl) rfl

end RecordKind

/-! ## Messages -/

namespace RecordMessage

open Wire

theorem number_ne_one (kind : RecordKind) : kind.number ≠ 1 := by
  cases kind <;> simp [RecordKind.number]

theorem isWritten_of_mem_fields (m : RecordMessage) : ∀ f ∈ m.fields, f.IsWritten := by
  rw [fields, List.forall_mem_append]
  refine ⟨isWritten_of_mem_natField (by decide) (by decide) m.sequence.toNat_lt, ?_⟩
  cases m.kind with
  | none => exact List.forall_mem_nil _
  | some kind =>
    refine List.forall_mem_singleton.mpr ⟨?_, ?_, .inr ⟨_, rfl⟩⟩ <;>
      cases kind <;> simp [RecordKind.number]

/-- **A message is read back** from its octets. -/
theorem decode?_encode {m : RecordMessage} (hshort : m.encode.length < 2 ^ 64) :
    decode? m.encode = some m := by
  -- A number that is zero has no field, and the message starts with zero.
  have hnumber : ∀ kind, (natField 1 m.sequence.toNat).foldlM take? ⟨0, kind⟩ =
      some ⟨m.sequence, kind⟩ := by
    intro kind
    unfold natField
    split
    · rename_i hzero
      have hsequence : m.sequence = 0 := UInt64.toNat_inj.mp hzero
      rw [hsequence]
      rfl
    · simp [take?, Value.nat?]
  rw [decode?, encode, decode_encode maxNesting m.isWritten_of_mem_fields hshort]
  obtain ⟨sequence, kind⟩ := m
  simp only [Option.bind_eq_bind, Option.bind_some, fields, blank]
  cases kind with
  | none =>
    rw [List.append_nil]
    exact hnumber none
  | some kind =>
    obtain ⟨blank, hblank, hkind⟩ := kind.foldlM_take?_fields
    -- The octets of the kind are among those of the message, so a varint can hold their length.
    have hinner : (Wire.encode kind.fields).length < 2 ^ 64 := by
      have hmem : (⟨kind.number, .delimited (Wire.encode kind.fields)⟩ : Wire.Field) ∈
          (RecordMessage.mk sequence (some kind)).fields := by
        simp [fields]
      exact Nat.lt_of_le_of_lt (Nat.le_trans (Field.length_le_length_encode rfl)
        (length_encode_le_of_mem hmem)) hshort
    refine foldlM_append_eq_some (hnumber none) ?_
    simp [take?, number_ne_one, kindAt?, hblank, Value.octets?, RecordKind.takeAll?,
      decode_encode _ kind.isWritten_of_mem_fields hinner, hkind]

end RecordMessage

/-! ## Records -/

namespace LogEntry

/-- **A record is read back** from its message. -/
theorem ofMessage_toMessage (e : LogEntry) : ofMessage e.toMessage = .ok e := by
  -- What a record writes has the form that is asked for, so no check fails.
  have haccount : ∀ sequence field (a : Account), accountOf sequence field a.bytes = .ok a := by
    simp [accountOf]
  have hamount : ∀ sequence (a : Amount), amountOf sequence (Word.bytes a) = .ok a := by
    simp [amountOf]
  have hrole : ∀ sequence (r : Role), roleOf sequence r.name = .ok r := by
    simp [roleOf]
  obtain ⟨sequence, record⟩ := e
  rw [ofMessage, toMessage]
  cases record with
  | deploy d =>
    simp only [recordKind, ofKind, haccount]
    rfl
  | operation o =>
    cases o <;> simp only [recordKind, operationKind, ofKind, haccount, hamount, hrole] <;> rfl

theorem encode_ne_nil (e : LogEntry) : e.encode ≠ [] := by
  rw [encode, RecordMessage.encode, RecordMessage.fields, toMessage]
  simp [Wire.encode, Wire.Field.encode_ne_nil]

/-- The name of the implementation that a record deploys or upgrades to. -/
def implementation? (e : LogEntry) : Option String :=
  match e.record with
  | .deploy d => some d.implementation
  | .operation (.upgrade implementation) => some implementation
  | .operation _ => none

/-- The octets of the name that a record mentions, which is all of it that can be long. -/
def nameOctets (e : LogEntry) : Bytes := (e.implementation?.map Bytes.utf8).getD []

/-- The octets of a record: its number, and its kind in a field of its own. -/
theorem encode_eq (e : LogEntry) :
    e.encode = Wire.encode (Wire.natField 1 e.sequence.toNat) ++
      Wire.Field.encode ⟨(recordKind e.record).number,
        .delimited (Wire.encode (recordKind e.record).fields)⟩ := by
  rw [encode, RecordMessage.encode, RecordMessage.fields, Wire.encode_append]
  exact congrArg _ (List.flatMap_singleton _ _)

/-- What a record says beside a name has at most this many octets. -/
theorem length_encode_fields_le (e : LogEntry) :
    (Wire.encode (recordKind e.record).fields).length ≤ 132 + e.nameOctets.length := by
  have hbytes := Wire.length_encode_bytesField_le
  have hrole : ∀ r : Role, (Bytes.utf8 r.name).length ≤ 20 := by
    intro r
    cases r <;> decide
  -- Of the fields of a kind each has at most twenty octets beside its content.
  obtain ⟨sequence, record⟩ := e
  rcases record with d | o
  · have hfields := Wire.length_encode_append_le
      (Wire.length_encode_append_le (hbytes 1 (Bytes.utf8 d.implementation))
        (hbytes 2 d.deployer.bytes)) (Wire.length_encode_natField_le 3 d.upgradeable.toNat)
    rw [Account.length_bytes] at hfields
    have hname : nameOctets ⟨sequence, .deploy d⟩ = Bytes.utf8 d.implementation := rfl
    rw [hname]
    exact Nat.le_trans hfields (by omega)
  cases o with
  | mint caller account amount | transfer caller account amount =>
    have hfields := Wire.length_encode_append_le
      (Wire.length_encode_append_le (hbytes 1 caller.bytes) (hbytes 2 account.bytes))
      (hbytes 3 (Word.bytes amount))
    rw [Account.length_bytes, Account.length_bytes, Word.length_bytes] at hfields
    exact Nat.le_trans hfields (Nat.le_add_right _ _)
  | auditReport caller amount =>
    have hfields := Wire.length_encode_append_le (hbytes 1 caller.bytes)
      (hbytes 2 (Word.bytes amount))
    rw [Account.length_bytes, Word.length_bytes] at hfields
    exact Nat.le_trans hfields (Nat.le_trans (by decide) (Nat.le_add_right _ _))
  | grantRole caller role account | revokeRole caller role account =>
    have hname := hrole role
    have hfields := Wire.length_encode_append_le
      (Wire.length_encode_append_le (hbytes 1 caller.bytes) (hbytes 2 (Bytes.utf8 role.name)))
      (hbytes 3 account.bytes)
    rw [Account.length_bytes, Account.length_bytes] at hfields
    refine Nat.le_trans hfields (Nat.le_trans ?_ (Nat.le_add_right _ _))
    omega
  | renounceRole caller role =>
    have hname := hrole role
    have hfields := Wire.length_encode_append_le (hbytes 1 caller.bytes)
      (hbytes 2 (Bytes.utf8 role.name))
    rw [Account.length_bytes] at hfields
    refine Nat.le_trans hfields (Nat.le_trans ?_ (Nat.le_add_right _ _))
    omega
  | upgrade implementation =>
    exact Nat.le_trans (hbytes 1 _) (Nat.add_le_add_right (by decide) _)

/-- A record has few octets beside those of a name. -/
theorem length_encode_le (e : LogEntry) : e.encode.length ≤ 172 + e.nameOctets.length := by
  have hsequence := Wire.length_encode_natField_le 1 e.sequence.toNat
  have hkind := Wire.Field.length_encode_delimited_le (recordKind e.record).number
    (Wire.encode (recordKind e.record).fields)
  have hfields := e.length_encode_fields_le
  rw [encode_eq, List.length_append]
  omega

/-- A record has more octets than its name. -/
theorem length_nameOctets_lt (e : LogEntry) : e.nameOctets.length < e.encode.length := by
  have hname : e.nameOctets.length ≤ (Wire.encode (recordKind e.record).fields).length := by
    have hfield := Wire.length_le_length_encode_bytesField 1
    obtain ⟨sequence, record⟩ := e
    rcases record with d | o
    · simp only [recordKind, RecordKind.fields, Wire.encode_append, List.length_append]
      exact Nat.le_add_right_of_le (Nat.le_add_right_of_le (hfield _))
    · cases o with
      | upgrade implementation => exact hfield _
      | _ => exact Nat.zero_le _
  -- The kind has a key and a length in front.
  have hkind : (Wire.encode (recordKind e.record).fields).length <
      (Wire.Field.encode ⟨(recordKind e.record).number,
        .delimited (Wire.encode (recordKind e.record).fields)⟩).length := by
    have hkey := List.length_pos_iff.mpr (Wire.varint_ne_nil
      (8 * (recordKind e.record).number + 2))
    simp only [Wire.Field.encode, Wire.Value.wireType, Wire.key, List.length_append]
    omega
  rw [encode_eq, List.length_append]
  omega

/-- **A record is read back from its octets**, whatever its number, its kind, its accounts, its
amount and its names are.  A name in memory is shorter than 2^63 octets. -/
theorem ofMessage_decode?_encode (e : LogEntry)
    (hname : ∀ name ∈ e.implementation?, (Bytes.utf8 name).length < 2 ^ 63) :
    (RecordMessage.decode? e.encode).map ofMessage = some (.ok e) := by
  have hoctets : e.nameOctets.length < 2 ^ 63 := by
    rw [nameOctets]
    cases hfound : e.implementation? with
    | none => decide
    | some name => exact hname name hfound
  have hshort : e.encode.length < 2 ^ 64 :=
    Nat.lt_of_le_of_lt e.length_encode_le (by omega)
  rw [encode] at hshort ⊢
  rw [RecordMessage.decode?_encode hshort, Option.map_some, ofMessage_toMessage]

/-- The least number, a name outside of ASCII and a flag that is left out. -/
theorem ofMessage_decode?_encode_fixedJeton :
    (RecordMessage.decode? (encode ⟨0, .deploy ⟨"Jeton à plafond", 0xd0, false⟩⟩)).map ofMessage =
      some (.ok ⟨0, .deploy ⟨"Jeton à plafond", 0xd0, false⟩⟩) := by
  refine ofMessage_decode?_encode _ fun name hname => ?_
  obtain rfl := Option.some.inj hname
  decide +kernel

end LogEntry

end SlotLedger
