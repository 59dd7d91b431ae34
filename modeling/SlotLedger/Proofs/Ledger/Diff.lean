import SlotLedger.Ledger.Diff
import SlotLedger.Proofs.Ledger.Fingerprint
import SlotLedger.Proofs.Ledger.Registry
import SlotLedger.Proofs.Ledger.Representation
import SlotLedger.Proofs.Snapshot.Restore

/-!
# What a clean comparison of ledgers says

A comparison is clean if the fingerprints agree.  But for collisions the ledgers then go by schemas
of one name and one version, and no word was added, removed or changed.  What is read from the words
agrees as far as both schemas have it at one position, and there is no more to say: schemas of one
name and version may differ, and where only one of them declares the audited counter, a clean
comparison lists the amounts that differ.  Within a registry the name tells the schema, so that
nothing is found.

## Main definitions

* `Schema.position?`: where a schema has the field of a name
* `LedgerDiff.FindsNothing`: no item of the comparison differs

## Main results

* `LedgerDiff.counts_eq_zero_iff`: the words are compared one and all
* `LedgerDiff.balanceChanges_eq_nil_iff`, `LedgerDiff.roleChanges_eq_nil_iff`: the accounts that are
  named are compared, and no others
* `LedgerDiff.findsNothing_iff`: nothing is found where all that is compared agrees
* `LedgerDiff.isClean_iff`: what a clean comparison says
* `LedgerDiff.isClean_run`: the comparison of ledgers after any calls
-/

namespace SlotLedger

namespace LedgerDiff

/-! ## Words -/

theorem countAdded_eq_zero_iff {a b : Storage} :
    countAdded a b = 0 ↔ ∀ slot, b.load slot ≠ 0 → a.load slot ≠ 0 := by
  rw [countAdded, List.countP_eq_zero,
    ← Storage.forall_mem_words (P := fun slot _ => a.load slot ≠ 0)]
  simp only [beq_iff_eq, ne_eq]

theorem countChanged_eq_zero_iff {a b : Storage} :
    countChanged a b = 0 ↔
      ∀ slot, a.load slot ≠ 0 → b.load slot ≠ 0 → b.load slot = a.load slot := by
  rw [countChanged, List.countP_eq_zero,
    ← Storage.forall_mem_words (P := fun slot value => b.load slot ≠ 0 → b.load slot = value)]
  simp only [Bool.and_eq_true, bne_iff_ne, ne_eq, not_and, not_not]

/-- **The words are compared one and all.** -/
theorem counts_eq_zero_iff {a b : Storage} :
    countAdded a b = 0 ∧ countAdded b a = 0 ∧ countChanged a b = 0 ↔ a = b := by
  rw [countAdded_eq_zero_iff, countAdded_eq_zero_iff, countChanged_eq_zero_iff]
  constructor
  · rintro ⟨hadded, hremoved, hchanged⟩
    refine Storage.ext_load fun slot => ?_
    by_cases ha : a.load slot = 0
    · -- A slot that reads zero in the first storage has no word to be added in the second.
      by_contra hne
      exact hadded slot (fun hb => hne (ha.trans hb.symm)) ha
    · exact (hchanged slot ha (hremoved slot ha)).symm
  · rintro rfl
    exact ⟨fun _ h => h, fun _ h => h, fun _ _ _ => rfl⟩

/-! ## Accounts -/

theorem mem_keys_foldl_insert (t : Table Account Unit) (accounts : List Account)
    (account : Account) :
    account ∈ (accounts.foldl (fun t a => t.insert a ()) t).keys ↔
      account ∈ accounts ∨ account ∈ t.keys := by
  induction accounts generalizing t with
  | nil => simp
  | cons first rest ih =>
    simp only [List.foldl_cons, ih, Table.mem_keys_iff, Table.get?_insert,
      Std.LawfulEqOrd.compare_eq_iff_eq, List.mem_cons]
    by_cases hfirst : account = first
    · simp [hfirst]
    · simp [hfirst]

theorem mem_distinct_iff {accounts : List Account} {account : Account} :
    account ∈ distinct accounts ↔ account ∈ accounts := by
  rw [distinct, mem_keys_foldl_insert]
  exact or_iff_left List.not_mem_nil

variable {a b : Ledger} {accounts : List Account}

/-- **No balance changes**: those of the named accounts agree. -/
theorem balanceChanges_eq_nil_iff : (ofLedgers a b accounts).balanceChanges = [] ↔
    ∀ account ∈ accounts, a.balanceOf account = b.balanceOf account := by
  simp [ofLedgers, List.filterMap_eq_nil_iff, mem_distinct_iff, balanceDiff?]

/-- **No role changes**: the memberships of the named accounts agree. -/
theorem roleChanges_eq_nil_iff : (ofLedgers a b accounts).roleChanges = [] ↔
    ∀ account ∈ accounts, ∀ role, a.hasRole role account = b.hasRole role account := by
  simp [ofLedgers, List.filterMap_eq_nil_iff, mem_distinct_iff, roleDiff?, Role.mem_all]

end LedgerDiff

/-! ## Positions -/

/-- The position of the field of a name. -/
def Schema.position? (s : Schema) (name : String) : Option SlotIndex :=
  (s.field? name).map (·.slotIndex)

theorem Bindings.position?_of_slotOf {schema : Schema} {name : String} {expected : SemanticType}
    {slot : Slot} (h : slotOf schema name expected = .ok slot) :
    (schema.position? name).map SlotIndex.slot = some slot := by
  obtain ⟨f, hf, -, rfl⟩ := slotOf_eq_ok_iff.mp h
  rw [Schema.position?, hf]
  rfl

/-- What is read is bound where the schema has it, and the counter only if the schema has it. -/
theorem Logic.position?_of_bind {logic : Logic} {schema : Schema} {b : Bindings}
    (h : logic.bind schema = .ok b) :
    (schema.position? FieldName.totalSupply).map SlotIndex.slot = some b.totalSupply ∧
      (schema.position? FieldName.totalAudited).map SlotIndex.slot = b.totalAudited ∧
      (schema.position? FieldName.balances).map SlotIndex.slot = some b.balances ∧
      (schema.position? FieldName.roles).map SlotIndex.slot = some b.roles := by
  obtain ⟨⟨-, hbalances, hsupply, hroles⟩, haudited⟩ := bind_eq_ok_iff.mp h
  refine ⟨Bindings.position?_of_slotOf hsupply, ?_, Bindings.position?_of_slotOf hbalances,
    Bindings.position?_of_slotOf hroles⟩
  -- Logic that does not keep the counter binds only where there is none.
  rcases haudited with ⟨-, slot, hslot, hcounter⟩ | ⟨-, hnone, hmissing⟩
  · rw [hslot, Bindings.position?_of_slotOf hcounter]
  · rw [hnone, Schema.position?, hmissing]
    rfl

/-- The octets of which a ledger's fingerprint is the digest. -/
def Ledger.canonicalBytes (l : Ledger) : Bytes := Bytes.utf8 (canonicalText l.schema l.storage)

namespace LedgerDiff

/-! ## Readings -/

variable {a b : Ledger} {accounts : List Account}

/-- No item of the comparison differs. -/
structure FindsNothing (r : LedgerDiff) : Prop where
  totalSupply : r.totalSupplyA = r.totalSupplyB
  totalAudited : r.totalAuditedA = r.totalAuditedB
  words : r.wordsAdded = 0 ∧ r.wordsRemoved = 0 ∧ r.wordsChanged = 0
  balances : r.balanceChanges = []
  roles : r.roleChanges = []

/-- **Nothing is found** exactly where the words and all that is read for the named accounts
agree. -/
theorem findsNothing_iff : (ofLedgers a b accounts).FindsNothing ↔
    a.totalSupply = b.totalSupply ∧ a.totalAudited = b.totalAudited ∧ a.storage = b.storage ∧
      ∀ account ∈ accounts, a.balanceOf account = b.balanceOf account ∧
        ∀ role, a.hasRole role account = b.hasRole role account := by
  rw [forall₂_and, ← balanceChanges_eq_nil_iff, ← roleChanges_eq_nil_iff]
  constructor
  · rintro ⟨hsupply, haudited, hwords, hbalances, hroles⟩
    exact ⟨hsupply, haudited, counts_eq_zero_iff.mp hwords, hbalances, hroles⟩
  · rintro ⟨hsupply, haudited, hstorage, hbalances, hroles⟩
    exact ⟨hsupply, haudited, counts_eq_zero_iff.mpr hstorage, hbalances, hroles⟩

section Readings

variable (ha : a.IsBound) (hb : b.IsBound) (hstorage : a.storage = b.storage)

include ha hb hstorage

/-! What is read of equal words, where both schemas have the field at one position. -/

theorem totalSupply_eq_of_position?_eq
    (h : a.schema.position? FieldName.totalSupply = b.schema.position? FieldName.totalSupply) :
    a.totalSupply = b.totalSupply := by
  obtain ⟨hslot, -⟩ := Logic.position?_of_bind ha.bound
  obtain ⟨hslot', -⟩ := Logic.position?_of_bind hb.bound
  rw [h, hslot', Option.some_inj] at hslot
  change a.storage.load a.bindings.totalSupply = b.storage.load b.bindings.totalSupply
  rw [hslot, hstorage]

theorem totalAudited_eq_of_position?_eq
    (h : a.schema.position? FieldName.totalAudited = b.schema.position? FieldName.totalAudited) :
    a.totalAudited = b.totalAudited := by
  obtain ⟨-, hslot, -⟩ := Logic.position?_of_bind ha.bound
  obtain ⟨-, hslot', -⟩ := Logic.position?_of_bind hb.bound
  change a.bindings.totalAudited.map a.storage.load = b.bindings.totalAudited.map b.storage.load
  rw [← hslot, ← hslot', h, hstorage]

theorem balanceChanges_eq_nil_of_position?_eq
    (h : a.schema.position? FieldName.balances = b.schema.position? FieldName.balances) :
    (ofLedgers a b accounts).balanceChanges = [] := by
  obtain ⟨-, -, hslot, -⟩ := Logic.position?_of_bind ha.bound
  obtain ⟨-, -, hslot', -⟩ := Logic.position?_of_bind hb.bound
  rw [h, hslot', Option.some_inj] at hslot
  refine balanceChanges_eq_nil_iff.mpr fun account _ => ?_
  change a.storage.load (mappingSlot a.bindings.balances account.key) =
    b.storage.load (mappingSlot b.bindings.balances account.key)
  rw [hslot, hstorage]

theorem roleChanges_eq_nil_of_position?_eq
    (h : a.schema.position? FieldName.roles = b.schema.position? FieldName.roles) :
    (ofLedgers a b accounts).roleChanges = [] := by
  obtain ⟨-, -, -, hslot⟩ := Logic.position?_of_bind ha.bound
  obtain ⟨-, -, -, hslot'⟩ := Logic.position?_of_bind hb.bound
  rw [h, hslot', Option.some_inj] at hslot
  refine roleChanges_eq_nil_iff.mpr fun account _ role => ?_
  change (a.storage.load (mappingSlot (mappingSlot a.bindings.roles role.key) account.key) != 0) =
    (b.storage.load (mappingSlot (mappingSlot b.bindings.roles role.key) account.key) != 0)
  rw [hslot, hstorage]

/-- Ledgers of one schema with equal words have every field at one position. -/
theorem findsNothing_of_schema_eq (h : a.schema = b.schema) :
    (ofLedgers a b accounts).FindsNothing where
  totalSupply := totalSupply_eq_of_position?_eq ha hb hstorage (by rw [h])
  totalAudited := totalAudited_eq_of_position?_eq ha hb hstorage (by rw [h])
  words := counts_eq_zero_iff.mpr hstorage
  balances := balanceChanges_eq_nil_of_position?_eq ha hb hstorage (by rw [h])
  roles := roleChanges_eq_nil_of_position?_eq ha hb hstorage (by rw [h])

end Readings

/-- The audited amount is there where the schema has the counter. -/
theorem isSome_totalAudited (ha : a.IsBound) :
    a.totalAudited.isSome = (a.schema.position? FieldName.totalAudited).isSome := by
  obtain ⟨-, hslot, -⟩ := Logic.position?_of_bind ha.bound
  change (a.bindings.totalAudited.map a.storage.load).isSome = _
  rw [← hslot, Option.isSome_map, Option.isSome_map]

/-! ## Clean comparisons -/

/-- **What a clean comparison says**: one name, one version, and no difference of words. -/
theorem isClean_iff (hdigest : ¬ Sha256.Collide a.canonicalBytes b.canonicalBytes) :
    (ofLedgers a b accounts).isClean = true ↔
      a.schema.name = b.schema.name ∧ a.schema.version = b.schema.version ∧
        a.storage = b.storage := by
  have hfingerprint : (ofLedgers a b accounts).isClean = true ↔
      canonicalDigest a.schema a.storage = canonicalDigest b.schema b.storage := beq_iff_eq
  -- Equal digests are those of one state, or of serializations that collide.
  rw [hfingerprint, canonicalDigest_eq_iff]
  constructor
  · rintro (hsame | hcollide)
    · exact ⟨hsame.name, hsame.version, hsame.storage_eq⟩
    · exact absurd hcollide hdigest
  · rintro ⟨hname, hversion, hstorage⟩
    exact .inl ⟨hname, hversion, fun slot => by rw [hstorage]⟩

/-- Ledgers of one registry have one schema if they have one name. -/
theorem schema_eq_of_isKnown {registry : Registry} (hregistry : registry.NamesSchemas)
    (ha : a.IsKnown registry) (hb : b.IsKnown registry) (hname : a.schema.name = b.schema.name) :
    a.schema = b.schema := by
  obtain ⟨name, i, hi, hschema, -⟩ := ha
  obtain ⟨name', i', hi', hschema', -⟩ := hb
  -- Implementations are named by their schemas, so there is one of this name.
  rw [hschema, hschema', hregistry name i hi, hregistry name' i' hi'] at hname
  subst hname
  rw [hschema, hschema', Option.some.inj (hi.symm.trans hi')]

/-- **What a clean comparison finds.**  The comparison of two ledgers, however they came about and
whatever calls they went through, is clean exactly if their schemas have one name and one version
and no word was added, removed or changed, and it finds nothing exactly if all that it compares
agrees.  A clean one finds that supplies, audited amounts, balances and memberships agree as far as
both schemas have the field at one position; but the audited amounts differ wherever just one schema
has the counter.  Within a registry that names implementations by their schemas a clean comparison
finds nothing.  Of the hash it is assumed that the two serializations do not collide. -/
theorem isClean_run {a b : Ledger} (ha : a.ComesAbout) (hb : b.ComesAbout)
    (callsA callsB : List Call) (accounts : List Account)
    (hdigest : ¬ Sha256.Collide (a.run callsA).canonicalBytes (b.run callsB).canonicalBytes) :
    let l := a.run callsA
    let m := b.run callsB
    let r := ofLedgers l m accounts
    (r.isClean = true ↔ l.schema.name = m.schema.name ∧ l.schema.version = m.schema.version ∧
        r.wordsAdded = 0 ∧ r.wordsRemoved = 0 ∧ r.wordsChanged = 0) ∧
      (r.FindsNothing ↔
        l.totalSupply = m.totalSupply ∧ l.totalAudited = m.totalAudited ∧ l.storage = m.storage ∧
          ∀ account ∈ accounts, l.balanceOf account = m.balanceOf account ∧
            ∀ role, l.hasRole role account = m.hasRole role account) ∧
      (r.isClean = true →
        (l.schema.position? FieldName.totalSupply = m.schema.position? FieldName.totalSupply →
          r.totalSupplyA = r.totalSupplyB) ∧
        (l.schema.position? FieldName.totalAudited = m.schema.position? FieldName.totalAudited →
          r.totalAuditedA = r.totalAuditedB) ∧
        (l.schema.position? FieldName.balances = m.schema.position? FieldName.balances →
          r.balanceChanges = []) ∧
        (l.schema.position? FieldName.roles = m.schema.position? FieldName.roles →
          r.roleChanges = [])) ∧
      ((l.schema.position? FieldName.totalAudited).isSome ≠
          (m.schema.position? FieldName.totalAudited).isSome →
        r.totalAuditedA ≠ r.totalAuditedB) ∧
      ∀ registry : Registry, registry.NamesSchemas → l.IsKnown registry → m.IsKnown registry →
        r.isClean = true → r.FindsNothing := by
  intro l m r
  have hboundA : l.IsBound := Ledger.isBound_run ha.isBound callsA
  have hboundB : m.IsBound := Ledger.isBound_run hb.isBound callsB
  have hclean : r.isClean = true ↔ l.schema.name = m.schema.name ∧
      l.schema.version = m.schema.version ∧ l.storage = m.storage := isClean_iff hdigest
  refine ⟨?_, findsNothing_iff, ?_, ?_, ?_⟩
  · rw [hclean, ← counts_eq_zero_iff]
    exact Iff.rfl
  · intro h
    obtain ⟨-, -, hstorage⟩ := hclean.mp h
    exact ⟨totalSupply_eq_of_position?_eq hboundA hboundB hstorage,
      totalAudited_eq_of_position?_eq hboundA hboundB hstorage,
      balanceChanges_eq_nil_of_position?_eq hboundA hboundB hstorage,
      roleChanges_eq_nil_of_position?_eq hboundA hboundB hstorage⟩
  · intro hcounter hsame
    -- An amount is there exactly where the schema has the counter.
    refine hcounter ?_
    rw [← isSome_totalAudited hboundA, ← isSome_totalAudited hboundB]
    exact congrArg Option.isSome hsame
  · intro registry hregistry hknownA hknownB h
    obtain ⟨hname, -, hstorage⟩ := hclean.mp h
    have hschema := schema_eq_of_isKnown hregistry hknownA hknownB hname
    exact findsNothing_of_schema_eq hboundA hboundB hstorage hschema

/-- The layout of the second version under the name and the version of the first. -/
def relabeledSecond : Schema := ⟨Schema.tokenV1.name, Schema.tokenV1.version, Schema.tokenV2.fields⟩

/-- The upgrade to the counter under the old name. -/
def toRelabeled : List Call := [.upgrade relabeledSecond .tokenV2]

set_option maxRecDepth 100000 in
/-- A clean comparison that lists a difference: the counter has come, and its word is zero. -/
theorem isClean_run_relabeled :
    ∃ l, Ledger.IsDeployed .tokenV1 .tokenV1 0xd0 l ∧
      ¬ Sha256.Collide l.canonicalBytes (l.run toRelabeled).canonicalBytes ∧
      (ofLedgers l (l.run toRelabeled) [0xd0]).isClean = true ∧
      ¬ (ofLedgers l (l.run toRelabeled) [0xd0]).FindsNothing ∧
      (ofLedgers l (l.run toRelabeled) [0xd0]).balanceChanges = [] ∧
      (ofLedgers l (l.run toRelabeled) [0xd0]).totalAuditedA = none ∧
      (ofLedgers l (l.run toRelabeled) [0xd0]).totalAuditedB = some 0 := by
  have htest : passes (Ledger.deploy .tokenV1 .tokenV1 0xd0) (fun l => decide
      ((l.schema = .tokenV1 ∧ (l.run toRelabeled).schema = relabeledSecond) ∧
        l.storage = (l.run toRelabeled).storage ∧
        l.totalAudited = none ∧ (l.run toRelabeled).totalAudited = some 0)) = true := by
    decide +kernel
  obtain ⟨l, hdeployed, htest⟩ := exists_of_passes htest
  obtain ⟨⟨hschema, hschema'⟩, hstorage, hnone, hzero⟩ := of_decide_eq_true htest
  have hsame : SameState l.schema l.storage
      (l.run toRelabeled).schema (l.run toRelabeled).storage := by
    rw [hschema, hschema', hstorage]
    exact ⟨rfl, rfl, fun _ => rfl⟩
  have hdigest : ¬ Sha256.Collide l.canonicalBytes (l.run toRelabeled).canonicalBytes := by
    rintro ⟨hne, -⟩
    exact hne (congrArg Bytes.utf8 hsame.canonicalText_eq)
  have hfrom : l.ComesAbout := .deployed (.inl hdeployed)
  obtain ⟨hclean, hfinds, hreadings, -⟩ := isClean_run hfrom hfrom [] toRelabeled [0xd0] hdigest
  have hcounts := counts_eq_zero_iff.mpr hstorage
  have hisClean := hclean.mpr ⟨hsame.name, hsame.version, hcounts⟩
  obtain ⟨-, -, hbalances, -⟩ := hreadings hisClean
  have hfound : ¬ (ofLedgers l (l.run toRelabeled) [0xd0]).FindsNothing := by
    intro hnothing
    obtain ⟨-, haudited, -⟩ := hfinds.mp hnothing
    -- There is no amount without a counter, and with it there is one.
    change l.totalAudited = _ at haudited
    rw [hnone, hzero] at haudited
    cases haudited
  refine ⟨l, .inl hdeployed, hdigest, hisClean, hfound, hbalances ?_, hnone, hzero⟩
  change l.schema.position? FieldName.balances = _
  rw [hschema, hschema']
  rfl

end LedgerDiff

end SlotLedger
