import SlotLedger.Proofs.Bytes
import SlotLedger.Proofs.Outcome
import SlotLedger.Proofs.Wire.Records

/-!
# Messages that carry a record

Of a message only the lengths of its accounts and of its amount and the name of its role can be
wrong.  Octets of the right length are those of one account or one amount, so a message that carries
a record is the message of that record, and nothing that the message says is lost.  A message that
carries none is blamed on the first of its fields that is wrong.

## Main definitions

* `CheckedField`, `CheckedField.IsSound`, `RecordKind.checked`: the fields that can be wrong
* `CheckedField.blame`, `RecordKind.unsound?`: what a refusal says

## Main results

* `LogEntry.ofKind_eq_ok_iff`, `LogEntry.exists_recordKind_iff`: the kinds that carry a record
* `LogEntry.ofMessage_eq_error_iff`: what is blamed
* `LogEntry.ofMessage_strict`: a message carries the record whose message it is, or none
-/

namespace SlotLedger

theorem Role.exists_name_eq_iff {name : String} :
    (∃ r : Role, r.name = name) ↔ name ∈ Role.all.map Role.name := by
  rw [List.mem_map]
  exact exists_congr fun r => (and_iff_right r.mem_all).symm

/-! ## Fields that can be wrong -/

/-- A field whose content may be none that a record has. -/
inductive CheckedField where
  | account (name : String) (octets : Bytes)
  | amount (octets : Bytes)
  | role (name : String)

namespace CheckedField

/-- The content is that of an account, of an amount or of a role. -/
def IsSound : CheckedField → Prop
  | account _ octets => octets.length = 20
  | amount octets => octets.length = 32
  | role name => name ∈ Role.all.map Role.name

instance : DecidablePred IsSound
  | account _ octets => inferInstanceAs (Decidable (octets.length = 20))
  | amount octets => inferInstanceAs (Decidable (octets.length = 32))
  | role name => inferInstanceAs (Decidable (name ∈ Role.all.map Role.name))

/-- What is said of a field that is wrong. -/
def blame (sequence : UInt64) : CheckedField → DecodeError
  | account name octets => .invalidLength sequence name 20 octets.length
  | amount octets => .invalidLength sequence "amount" 32 octets.length
  | role name => .unknownRole sequence name

end CheckedField

namespace RecordKind

/-- The fields of a kind that can be wrong, in the order in which they are looked at. -/
def checked : RecordKind → List CheckedField
  | deploy _ deployer _ => [.account "deployer" deployer]
  | mint caller target amount =>
    [.account "caller" caller, .account "target" target, .amount amount]
  | auditReport caller amount => [.account "caller" caller, .amount amount]
  | transfer caller receiver amount =>
    [.account "caller" caller, .account "to" receiver, .amount amount]
  | grantRole caller role account =>
    [.account "caller" caller, .role role, .account "account" account]
  | revokeRole caller role account =>
    [.account "caller" caller, .role role, .account "account" account]
  | renounceRole caller role => [.account "caller" caller, .role role]
  | upgrade _ => []

/-- The first field that is wrong. -/
def unsound? (kind : RecordKind) : Option CheckedField := kind.checked.find? (¬ ·.IsSound)

theorem unsound?_eq_none_iff {kind : RecordKind} :
    kind.unsound? = none ↔ ∀ c ∈ kind.checked, c.IsSound := by
  simp [unsound?]

end RecordKind

namespace LogEntry

variable {sequence : UInt64} {field name : String} {octets : Bytes} {kind : RecordKind}

theorem accountOf_eq_ok_iff {a : Account} :
    accountOf sequence field octets = .ok a ↔ a.bytes = octets := by
  rw [accountOf]
  split
  · rename_i hlength
    rw [Except.ok.injEq]
    exact ⟨fun h => h ▸ Account.bytes_ofBytes hlength, fun h => h ▸ a.ofBytes_bytes⟩
  · rename_i hlength
    constructor
    · intro h
      cases h
    · rintro rfl
      exact absurd a.length_bytes hlength

theorem amountOf_eq_ok_iff {a : Amount} :
    amountOf sequence octets = .ok a ↔ Word.bytes a = octets := by
  rw [amountOf]
  split
  · rename_i hlength
    rw [Except.ok.injEq]
    exact ⟨fun h => h ▸ Word.bytes_ofBytes hlength, fun h => h ▸ Word.ofBytes_bytes a⟩
  · rename_i hlength
    constructor
    · intro h
      cases h
    · rintro rfl
      exact absurd (Word.length_bytes a) hlength

theorem roleOf_eq_ok_iff {r : Role} : roleOf sequence name = .ok r ↔ r.name = name := by
  rw [← Role.ofName?_eq_some_iff, roleOf]
  cases Role.ofName? name <;> simp

/-- **A kind carries the record whose kind it is**, and no other. -/
theorem ofKind_eq_ok_iff {r : LogRecord} : ofKind sequence kind = .ok r ↔ recordKind r = kind := by
  constructor
  · intro h
    -- Every field that was read is written again with the octets that it had.
    cases kind <;> simp only [ofKind, bind_eq_ok_iff, accountOf_eq_ok_iff, amountOf_eq_ok_iff,
      roleOf_eq_ok_iff] at h
    case upgrade =>
      cases h
      rfl
    case deploy =>
      obtain ⟨_, rfl, ⟨⟩⟩ := h
      rfl
    case auditReport | renounceRole =>
      obtain ⟨_, rfl, _, rfl, ⟨⟩⟩ := h
      rfl
    case mint | transfer | grantRole | revokeRole =>
      obtain ⟨_, rfl, _, rfl, _, rfl, ⟨⟩⟩ := h
      rfl
  · rintro rfl
    obtain ⟨r', hr', heq⟩ := map_eq_ok_iff.mp (ofMessage_toMessage ⟨sequence, r⟩)
    obtain ⟨-, rfl⟩ := LogEntry.mk.inj heq
    exact hr'

/-- The kinds of records are those without a field that is wrong. -/
theorem exists_recordKind_iff :
    (∃ r, recordKind r = kind) ↔ ∀ c ∈ kind.checked, c.IsSound := by
  constructor
  · rintro ⟨d | o, rfl⟩
    · simp [recordKind, RecordKind.checked, CheckedField.IsSound]
    · cases o <;> simp [recordKind, operationKind, RecordKind.checked, CheckedField.IsSound,
        ← Role.exists_name_eq_iff]
  · intro h
    -- Sound fields are those of accounts, amounts and roles, and these make up the record.
    cases kind <;> simp only [RecordKind.checked, List.forall_mem_cons, CheckedField.IsSound,
      ← Account.exists_bytes_eq_iff, ← Word.exists_bytes_eq_iff, ← Role.exists_name_eq_iff] at h
    case deploy implementation _ upgradeable =>
      obtain ⟨⟨deployer, rfl⟩, -⟩ := h
      exact ⟨.deploy ⟨implementation, deployer, upgradeable⟩, rfl⟩
    case mint =>
      obtain ⟨⟨caller, rfl⟩, ⟨target, rfl⟩, ⟨amount, rfl⟩, -⟩ := h
      exact ⟨.operation (.mint caller target amount), rfl⟩
    case auditReport =>
      obtain ⟨⟨caller, rfl⟩, ⟨amount, rfl⟩, -⟩ := h
      exact ⟨.operation (.auditReport caller amount), rfl⟩
    case transfer =>
      obtain ⟨⟨caller, rfl⟩, ⟨receiver, rfl⟩, ⟨amount, rfl⟩, -⟩ := h
      exact ⟨.operation (.transfer caller receiver amount), rfl⟩
    case grantRole =>
      obtain ⟨⟨caller, rfl⟩, ⟨role, rfl⟩, ⟨account, rfl⟩, -⟩ := h
      exact ⟨.operation (.grantRole caller role account), rfl⟩
    case revokeRole =>
      obtain ⟨⟨caller, rfl⟩, ⟨role, rfl⟩, ⟨account, rfl⟩, -⟩ := h
      exact ⟨.operation (.revokeRole caller role account), rfl⟩
    case renounceRole =>
      obtain ⟨⟨caller, rfl⟩, ⟨role, rfl⟩, -⟩ := h
      exact ⟨.operation (.renounceRole caller role), rfl⟩
    case upgrade implementation => exact ⟨.operation (.upgrade implementation), rfl⟩

/-! ## What is blamed -/

/-- The first of the given fields that is wrong is blamed. -/
def Blames {α : Type} (sequence : UInt64) (checked : List CheckedField)
    (x : Except DecodeError α) : Prop :=
  ∀ c, checked.find? (¬ ·.IsSound) = some c → x = .error (c.blame sequence)

namespace Blames

variable {α β : Type} {checked : List CheckedField} {c : CheckedField}

theorem nil {x : Except DecodeError α} : Blames sequence [] x := nofun

/-- A field is looked at before those that come after it. -/
theorem cons {x : Except DecodeError α} {next : α → Except DecodeError β}
    (hsound : c.IsSound → ∃ a, x = .ok a) (hwrong : ¬ c.IsSound → x = .error (c.blame sequence))
    (hnext : ∀ a, Blames sequence checked (next a)) :
    Blames sequence (c :: checked) (x >>= next) := by
  intro d hd
  by_cases hc : c.IsSound
  · rw [List.find?_cons_of_neg (by simpa using hc)] at hd
    obtain ⟨a, rfl⟩ := hsound hc
    exact hnext a d hd
  · rw [List.find?_cons_of_pos (by simpa using hc)] at hd
    rw [hwrong hc, ← Option.some.inj hd]
    rfl

theorem account {next : Account → Except DecodeError α}
    (hnext : ∀ a, Blames sequence checked (next a)) :
    Blames sequence (.account field octets :: checked)
      (accountOf sequence field octets >>= next) :=
  cons (fun h => ⟨_, if_pos h⟩) (fun h => if_neg h) hnext

theorem amount {next : Amount → Except DecodeError α}
    (hnext : ∀ a, Blames sequence checked (next a)) :
    Blames sequence (.amount octets :: checked) (amountOf sequence octets >>= next) :=
  cons (fun h => ⟨_, if_pos h⟩) (fun h => if_neg h) hnext

theorem role {next : Role → Except DecodeError α}
    (hnext : ∀ a, Blames sequence checked (next a)) :
    Blames sequence (.role name :: checked) (roleOf sequence name >>= next) := by
  refine cons (fun h => ?_) (fun h => ?_) hnext
  · obtain ⟨r, hr⟩ := Role.exists_name_eq_iff.mpr h
    exact ⟨r, roleOf_eq_ok_iff.mpr hr⟩
  · have hnone : Role.ofName? name = none := by
      refine Option.eq_none_iff_forall_ne_some.mpr fun r hr => h ?_
      exact Role.exists_name_eq_iff.mp ⟨r, Role.ofName?_eq_some_iff.mp hr⟩
    rw [roleOf, hnone]
    rfl

end Blames

theorem blames_ofKind (sequence : UInt64) (kind : RecordKind) :
    Blames sequence kind.checked (ofKind sequence kind) := by
  cases kind with
  | deploy => exact .account fun _ => .nil
  | mint | transfer => exact .account fun _ => .account fun _ => .amount fun _ => .nil
  | auditReport => exact .account fun _ => .amount fun _ => .nil
  | grantRole | revokeRole => exact .account fun _ => .role fun _ => .account fun _ => .nil
  | renounceRole => exact .account fun _ => .role fun _ => .nil
  | upgrade => exact .nil

/-- **What is blamed.**  A message without a kind is refused as such, and any other that carries no
record for the first of its fields that is wrong. -/
theorem ofMessage_eq_error_iff {m : RecordMessage} {error : DecodeError} :
    ofMessage m = .error error ↔
      (m.kind = none ∧ error = .missingKind m.sequence) ∨
        ∃ kind c, m.kind = some kind ∧ kind.unsound? = some c ∧ error = c.blame m.sequence := by
  obtain ⟨sequence, none | kind⟩ := m
  · simp [ofMessage, eq_comm]
  have hblames := blames_ofKind sequence kind
  cases hunsound : kind.unsound? with
  | none =>
    obtain ⟨r, hr⟩ := exists_recordKind_iff.mpr (RecordKind.unsound?_eq_none_iff.mp hunsound)
    simp [ofMessage, ofKind_eq_ok_iff.mpr hr, hunsound, Except.map]
  | some c => simp [ofMessage, hblames c hunsound, hunsound, Except.map, eq_comm]

/-- Both fields are wrong, and the caller is looked at first. -/
example : ofMessage ⟨3, some (.auditReport [0xd0] [])⟩ =
    .error (.invalidLength 3 "caller" 20 1) := rfl

/-! ## Messages -/

theorem ofMessage_eq_ok_iff {m : RecordMessage} {e : LogEntry} :
    ofMessage m = .ok e ↔ e.toMessage = m := by
  constructor
  · intro h
    obtain ⟨sequence, none | kind⟩ := m
    · cases h
    obtain ⟨r, hr, rfl⟩ := map_eq_ok_iff.mp h
    rw [toMessage, ofKind_eq_ok_iff.mp hr]
  · rintro rfl
    exact ofMessage_toMessage e

theorem exists_ofMessage_eq_ok_iff {m : RecordMessage} :
    (∃ e, ofMessage m = .ok e) ↔
      ∃ kind, m.kind = some kind ∧ ∀ c ∈ kind.checked, c.IsSound := by
  simp only [ofMessage_eq_ok_iff]
  constructor
  · rintro ⟨e, rfl⟩
    exact ⟨_, rfl, exists_recordKind_iff.mp ⟨e.record, rfl⟩⟩
  · rintro ⟨kind, hkind, hsound⟩
    obtain ⟨r, rfl⟩ := exists_recordKind_iff.mpr hsound
    exact ⟨⟨m.sequence, r⟩, by rw [toMessage, ← hkind]⟩

/-- **Reading is strict and loses nothing.**  A message carries a record exactly if it has a kind
and each of its accounts has twenty octets, its amount thirty-two and its role the name of one.  The
record is the one whose message it is, so that different messages carry different records. -/
theorem ofMessage_strict (m : RecordMessage) :
    ((∃ e, ofMessage m = .ok e) ↔
        ∃ kind, m.kind = some kind ∧ ∀ c ∈ kind.checked, c.IsSound) ∧
      (∀ e, ofMessage m = .ok e ↔ e.toMessage = m) ∧
      ∀ m' e, ofMessage m = .ok e → ofMessage m' = .ok e → m = m' := by
  refine ⟨exists_ofMessage_eq_ok_iff, fun e => ofMessage_eq_ok_iff, fun m' e h h' => ?_⟩
  rw [← ofMessage_eq_ok_iff.mp h, ← ofMessage_eq_ok_iff.mp h']

end LogEntry

end SlotLedger
