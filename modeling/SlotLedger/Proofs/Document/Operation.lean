import SlotLedger.Proofs.Amount
import SlotLedger.Proofs.Json.Strict
import SlotLedger.Scenario

/-!
# Operations and scenarios are read back

The document of an operation names its kind beside the arguments, and an envelope puts a number in
front of both.  Every argument tells its value: an account by its forty digits, an amount by its
decimal digits, a role by its name, an implementation by its name with whatever characters it has.
None of these documents nests deep, so each is read whole from its text, and a scenario is read even
by the strict reader.

## Main results

* `Account.read?_toJson`, `Amount.ofJson?_toJson`, `Role.ofContent?_toJson`: the arguments
* `Operation.ofMembers?_members`: an operation among the members of an object
* `Operation.ofJson?_toJson`, `SequencedOperation.ofJson?_toJson`, `Scenario.ofStrict?_toJson`: the
  documents
* `Scenario.parse?_compact_toJson`: their texts
-/

namespace SlotLedger

/-! ## Arguments -/

namespace Account

theorem octets?_hexChars (bytes : Bytes) :
    octets? (Bytes.utf8 (String.ofList (Bytes.hexChars bytes))) = some bytes := by
  rw [Bytes.utf8_ofList]
  induction bytes with
  | nil => rfl
  | cons b rest ih =>
    have hb := b.toNat_lt
    obtain ⟨high, hhigh, -, hhighDigit⟩ := Numeral.octets_digitChar (b.toNat / 16) (by omega)
    obtain ⟨low, hlow, -, hlowDigit⟩ := Numeral.octets_digitChar (b.toNat % 16) (by omega)
    have hoctet : octet? high low = some b := by
      rw [octet?, hhighDigit, hlowDigit]
      change some (UInt8.ofNat (16 * (b.toNat / 16) + b.toNat % 16)) = some b
      rw [Nat.div_add_mod, UInt8.ofNat_toNat]
    -- A digit is one octet in UTF-8, so the text begins with the octets of the two digits.
    have hsplit : (Bytes.hexChars (b :: rest)).flatMap String.utf8EncodeChar =
        high :: low :: (Bytes.hexChars rest).flatMap String.utf8EncodeChar := by
      simp [Bytes.hexChars, hhigh, hlow]
    rw [hsplit, octets?, hoctet, ih]
    rfl

theorem ofText?_hex (a : Account) : ofText? a.hex = some a := by
  rw [ofText?, hex, String.toList_ofList]
  change (octets? (Bytes.utf8 (String.ofList (Bytes.hexChars a.bytes)))).bind ofOctets? = some a
  rw [octets?_hexChars, Option.bind_some, ofOctets?, length_bytes, if_pos rfl, ofBytes_bytes]

/-- **An account is read back**, whatever else may stand for one. -/
theorem read?_toJson (passes : Json → Bool) (a : Account) : read? passes a.toJson = some a :=
  ofText?_hex a

end Account

/-- **An amount is read back.** -/
theorem Amount.ofJson?_toJson (a : Amount) : Amount.ofJson? (Amount.toJson a) = some a := by
  change (Amount.parse (Word.decimal a)).toOption = some a
  rw [Amount.parse_decimal]
  rfl

/-- **A role is read back.** -/
theorem Role.ofContent?_toJson (r : Role) : Role.ofContent? r.toJson = some r := Role.ofName?_name r

/-! ## Operations -/

/-- The one member of a name is told apart from all others. -/
theorem Json.partition_cons_eq {name : String} {value : Json} {others : List (String × Json)}
    (h : ∀ m ∈ others, (m.1 == name) = false) :
    ((name, value) :: others).partition (·.1 == name) = ([(name, value)], others) := by
  have hnone : others.filter (·.1 == name) = [] :=
    List.filter_eq_nil_iff.mpr fun m hm => by simp [h m hm]
  have hall : others.filter (fun m => !(m.1 == name)) = others :=
    List.filter_eq_self.mpr fun m hm => by simp [h m hm]
  rw [List.partition_eq_filter_filter, List.filter_cons_of_pos (by simp), hnone,
    List.filter_cons_of_neg (by simp)]
  exact congrArg _ hall

namespace Operation

open Json

/-- The kind and the arguments are found in an object that has the kind first. -/
theorem ofMembers?_cons {kind? : Json → Option String} {kind : String}
    (hkind : kind? (.string kind) = some kind) {arguments : List (String × Json)}
    (hop : ∀ m ∈ arguments, (m.1 == "op") = false)
    (hreadable : membersReadable arguments = true) :
    ofMembers? kind? (("op", .string kind) :: arguments) =
      ofArguments? kind (.object arguments) := by
  rw [ofMembers?, partition_cons_eq hop]
  dsimp only
  rw [hkind, hreadable]
  rfl

/-- **An operation is found among its members.** -/
theorem ofMembers?_members {kind? : Json → Option String}
    (hkind : ∀ kind, kind? (.string kind) = some kind) (o : Operation) :
    ofMembers? kind? o.members = some o := by
  have haccount := Account.read?_toJson fun _ => true
  -- Every kind has arguments of its own, each of which is read where the kind asks for it.
  cases o with
  | mint caller target amount =>
    rw [members, ofMembers?_cons (hkind _) (by simp) rfl, ofArguments?]
    refine read_record (by rfl) (by decide) ?_
    refine read_required rfl (haccount caller) ?_
    refine read_required rfl (haccount target) ?_
    exact read_required rfl (Amount.ofJson?_toJson amount) rfl
  | auditReport caller amount =>
    rw [members, ofMembers?_cons (hkind _) (by simp) rfl, ofArguments?]
    refine read_record (by rfl) (by decide) ?_
    refine read_required rfl (haccount caller) ?_
    exact read_required rfl (Amount.ofJson?_toJson amount) rfl
  | transfer caller receiver amount =>
    rw [members, ofMembers?_cons (hkind _) (by simp) rfl, ofArguments?]
    refine read_record (by rfl) (by decide) ?_
    refine read_required rfl (haccount caller) ?_
    refine read_required rfl (haccount receiver) ?_
    exact read_required rfl (Amount.ofJson?_toJson amount) rfl
  | grantRole caller role account =>
    rw [members, ofMembers?_cons (hkind _) (by simp) rfl, ofArguments?]
    refine read_record (by rfl) (by decide) ?_
    refine read_required rfl (haccount caller) ?_
    refine read_required rfl role.ofContent?_toJson ?_
    exact read_required rfl (haccount account) rfl
  | revokeRole caller role account =>
    rw [members, ofMembers?_cons (hkind _) (by simp) rfl, ofArguments?]
    refine read_record (by rfl) (by decide) ?_
    refine read_required rfl (haccount caller) ?_
    refine read_required rfl role.ofContent?_toJson ?_
    exact read_required rfl (haccount account) rfl
  | renounceRole caller role =>
    rw [members, ofMembers?_cons (hkind _) (by simp) rfl, ofArguments?]
    refine read_record (by rfl) (by decide) ?_
    refine read_required rfl (haccount caller) ?_
    exact read_required rfl role.ofContent?_toJson rfl
  | upgrade implementation =>
    rw [members, ofMembers?_cons (hkind _) (by simp) rfl, ofArguments?]
    refine read_record (by rfl) (by decide) ?_
    exact read_required (a := implementation) rfl rfl rfl

theorem ofJson?_toJson (o : Operation) : ofJson? o.toJson = some o :=
  ofMembers?_members (fun _ => rfl) o

theorem isPlain_toJson (o : Operation) : o.toJson.isPlain = true := by
  cases o <;> rfl

theorem depth_toJson (o : Operation) : o.toJson.depth = 1 := by
  cases o <;> rfl

/-- No argument is named for the number of an envelope. -/
theorem fst_ne_sequence (o : Operation) : ∀ m ∈ o.members, (m.1 == "sequence") = false := by
  cases o <;> simp [members]

end Operation

/-! ## Envelopes and scenarios -/

open Json

namespace SequencedOperation

theorem kind?_string (kind : String) : kind? (.string kind) = some kind := rfl

/-- **An operation is found beside its number.** -/
theorem ofJson?_toJson (e : SequencedOperation) : ofJson? e.toJson = some e := by
  rw [toJson, ofJson?, partition_cons_eq e.operation.fst_ne_sequence]
  dsimp only
  rw [Operation.ofMembers?_members kind?_string]
  rfl

theorem isPlain_toJson (e : SequencedOperation) : e.toJson.isPlain = true :=
  e.operation.isPlain_toJson

theorem depth_toJson (e : SequencedOperation) : e.toJson.depth = 1 := by
  have hoperation := e.operation.depth_toJson
  rw [Operation.toJson, depth] at hoperation
  simpa [toJson, depth, membersDepth] using hoperation

end SequencedOperation

theorem Deployment.ofStrict?_toJson (d : Deployment) : ofStrict? d.toJson = some d := by
  rw [toJson, ofStrict?, read?]
  refine read_record (by rfl) (by decide) ?_
  refine read_required (a := d.implementation) rfl rfl ?_
  exact read_required rfl (Account.read?_toJson _ d.deployer) rfl

namespace Scenario

variable (s : Scenario)

theorem isPlain_toJson : s.toJson.isPlain = true := by
  have hoperations : arePlain (s.operations.map Operation.toJson) = true :=
    arePlain_iff.mpr (List.forall_mem_map.mpr fun o _ => o.isPlain_toJson)
  simp [toJson, isPlain, membersPlain, hoperations, Deployment.toJson, Account.toJson]

theorem itemsDepth_operations_le : itemsDepth (s.operations.map Operation.toJson) ≤ 1 :=
  itemsDepth_le_iff.mpr (List.forall_mem_map.mpr fun o _ => o.depth_toJson.le)

theorem depth_toJson_le : s.toJson.depth ≤ maxDepth := by
  have hoperations := s.itemsDepth_operations_le
  simp only [toJson, depth, membersDepth, Deployment.toJson, Account.toJson, maxDepth]
  omega

theorem ofStrict?_toJson : ofStrict? s.toJson = some s := by
  have hreads : ReadsWhole Operation.ofJson? Operation.toJson := fun o _ => o.ofJson?_toJson
  have hoperations : (Json.array (s.operations.map Operation.toJson)).depth ≤ maxDepth :=
    Nat.le_trans (Nat.succ_le_succ s.itemsDepth_operations_le) (by decide)
  rw [toJson, ofStrict?]
  refine read_record (by rfl) (by decide) ?_
  refine read_required rfl s.deployment.ofStrict?_toJson ?_
  exact read_required rfl (readsWhole_list hreads s.operations hoperations) rfl

/-- **Operations and scenarios survive being printed.**  A scenario is read back from its printed
text, whatever its deployment and its operations are, and so is an operation with its number. -/
theorem parse?_compact_toJson :
    (∀ s : Scenario, parse? s.toJson.compact = some s) ∧
      ∀ e : SequencedOperation,
        (Json.parse? e.toJson.compact).bind SequencedOperation.ofJson? = some e := by
  constructor
  · intro s
    rw [parse?, parseStrict?_compact s.isPlain_toJson s.depth_toJson_le, Option.bind_some,
      ofStrict?_toJson]
  · intro e
    have hreads : ReadsWhole SequencedOperation.ofJson? SequencedOperation.toJson :=
      fun e _ => e.ofJson?_toJson
    exact hreads.parse?_compact e.isPlain_toJson (by rw [e.depth_toJson]; decide)

/-- Quotes, backslashes and control characters are escaped, and nothing else is. -/
example : (Operation.upgrade "\"\\\x01é").toJson.compact =
    "\x7b\"op\":\"upgrade\",\"implementation\":\"\\\"\\\\\\u0001é\"\x7d" := by
  decide +kernel

end Scenario

end SlotLedger
