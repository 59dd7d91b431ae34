import SlotLedger.Proofs.Layout.Preorder
import SlotLedger.Proofs.Ledger.Preservation
import SlotLedger.Proofs.Ledger.Representation

/-!
# The lineage of a layout

Layouts only grow.  What is allowed step by step is allowed at once, so the active layout of a
ledger takes over from every one that was active before, and always from itself.  The records of
upgrades tell the steps: each goes on where the one before has led, and with the fields that they
list the first layout makes up the last, none of them lost, changed or listed twice.

## Main definitions

* `Schema.Lineage`: records lead from one layout to another

## Main results

* `Schema.Lineage.concat`: one more step
* `Ledger.keeps_run`: layouts along a run
* `Ledger.upgrade_self`: the upgrade to what is in place already
* `Ledger.checkUpgrade_run`: the check orders layouts, and the layouts of a ledger in time
* `Ledger.lineage_run`: the history of a ledger gives its layout back
-/

namespace SlotLedger

/-! ## Steps from layout to layout -/

/-- The name and version of a layout. -/
def Schema.identity (s : Schema) : String × UInt32 := (s.name, s.version)

namespace UpgradeRecord

/-- The layout that an upgrade left, by name and version. -/
def source (r : UpgradeRecord) : String × UInt32 := (r.fromImplementation, r.fromVersion)

/-- The layout that an upgrade put in place, by name and version. -/
def target (r : UpgradeRecord) : String × UInt32 := (r.toImplementation, r.toVersion)

end UpgradeRecord

namespace Schema

/-- The records lead from the first layout to the last: each goes on where the one before has led,
and the last layout has, in some order, the fields of the first and those that the records list, and
each of them once. -/
structure Lineage (first : Schema) (records : List UpgradeRecord) (last : Schema) : Prop where
  chain : records.IsChain fun r next => next.source = r.target
  source : ∀ r ∈ records.head?, r.source = first.identity
  target : ∀ r ∈ records.getLast?, r.target = last.identity
  unchanged : records = [] → last = first
  fields : last.fields.Perm (first.fields ++ records.flatMap (·.appendedFields))
  nodup : (first.fields ++ records.flatMap (·.appendedFields)).Nodup

variable {first last new : Schema} {records : List UpgradeRecord}

/-- No record leads from a valid layout to itself. -/
theorem Lineage.nil (hfirst : first.validate = .ok ()) : Lineage first [] first where
  chain := .nil
  source := nofun
  target := nofun
  unchanged _ := rfl
  fields := by rw [List.flatMap_nil, List.append_nil]
  nodup := by
    rw [List.flatMap_nil, List.append_nil]
    exact nodup_fields hfirst

/-- **One more step**, to a valid layout that may take over. -/
theorem Lineage.concat (h : Lineage first records last) (hlast : last.validate = .ok ())
    (hnew : new.validate = .ok ()) (hkeeps : last.Keeps new) {r : UpgradeRecord}
    (hsource : r.source = last.identity) (htarget : r.target = new.identity)
    (happended : r.appendedFields = appended last new) :
    Lineage first (records ++ [r]) new := by
  -- What the new layout has are the fields up to here and those of the record.
  have hfields : new.fields.Perm
      (first.fields ++ (records ++ [r]).flatMap (·.appendedFields)) := by
    rw [List.flatMap_append, List.flatMap_singleton, happended, ← List.append_assoc]
    exact (fields_perm hlast hnew hkeeps).trans (h.fields.append_right _)
  refine ⟨?_, ?_, ?_, ?_, hfields, hfields.nodup (nodup_fields hnew)⟩
  · -- The new record goes on where the last of the others has led.
    refine List.isChain_append.mpr ⟨h.chain, .singleton r, ?_⟩
    intro before hbefore next hnext
    obtain rfl : r = next := Option.some.inj hnext
    rw [hsource, h.target before hbefore]
  · -- It is the first one only where no layout has changed before it.
    intro q hq
    cases records with
    | nil =>
      obtain rfl : r = q := Option.some.inj hq
      rw [hsource, h.unchanged rfl]
    | cons q' rest => exact h.source q hq
  · intro q hq
    rw [List.getLast?_concat] at hq
    obtain rfl : r = q := Option.some.inj hq
    exact htarget
  · intro hempty
    exact absurd hempty (List.concat_ne_nil r records)

end Schema

namespace Ledger

/-! ## One call -/

section Call

variable {l : Ledger} (hl : l.IsBound) (c : Call)

include hl

/-- The layout after a call keeps the one before it. -/
theorem keeps_after : l.schema.Keeps (l.after c).schema := by
  have hself := Schema.keeps_self hl.valid
  rcases l.after_cases c with ⟨-, hm⟩ | ⟨schema, logic, r, -, hupgrade⟩ | ⟨hm, -⟩
  · rw [hm]
    exact hself
  · obtain ⟨⟨-, -, hallowed, -⟩, b, -, hm, -⟩ := upgrade_eq_ok_iff.mp hupgrade
    rw [hm]
    exact Schema.isAllowed_checkUpgrade_iff.mp hallowed
  · rwa [hm]

/-- **One call** adds a step to the lineage, or leaves it as it is. -/
theorem lineage_after {first : Schema} (h : Schema.Lineage first l.history l.schema) :
    Schema.Lineage first (l.after c).history (l.after c).schema := by
  rcases l.after_cases c with ⟨-, hm⟩ | ⟨schema, logic, r, -, hupgrade⟩ | ⟨hm, -⟩
  · rw [hm]
    exact h
  · obtain ⟨⟨-, -, hallowed, hvalid⟩, b, -, -, hr⟩ := upgrade_eq_ok_iff.mp hupgrade
    rw [history_upgrade hupgrade, schema_upgrade hupgrade]
    have hkeeps := Schema.isAllowed_checkUpgrade_iff.mp hallowed
    refine h.concat hl.valid hvalid hkeeps ?_ ?_ (appendedFields_upgrade hupgrade)
    · rw [hr]
      rfl
    · rw [hr]
      rfl
  · rwa [hm]

end Call

/-- **The upgrade to what is in place already** is accepted, and leaves nothing but its record. -/
theorem upgrade_self {l : Ledger} (hl : l.IsCoherent) (hupgradeable : l.upgradeable = true) :
    l.upgrade l.schema l.logic =
      .ok ({ l with history := l.history ++ [l.upgradeRecord l.schema] },
        l.upgradeRecord l.schema) := by
  have hverdict := Schema.checkUpgrade_self hl.valid
  have hallowed : (l.schema.checkUpgrade l.schema).isAllowed = true := by
    rw [hverdict]
    rfl
  refine upgrade_eq_ok_iff.mpr ⟨⟨hupgradeable, hl.upgradeSafe hupgradeable, hallowed, hl.valid⟩,
    l.bindings, hl.bound, ?_, rfl⟩
  -- No field is added, so no slot is zeroed.
  rw [upgraded, hverdict]
  rfl

/-! ## Runs -/

/-- **The layout after a run keeps the one before it.** -/
theorem keeps_run {l : Ledger} (hl : l.IsBound) (calls : List Call) :
    l.schema.Keeps (l.run calls).schema :=
  run_induction_of_isBound (P := fun m => l.schema.Keeps m.schema)
    (fun _ c hm hkeeps => hkeeps.trans (keeps_after hm c)) hl (Schema.keeps_self hl.valid) calls

/-- **The check orders layouts**: what it allows in two steps it allows in one, it allows a valid
layout for itself and adds nothing, and layouts that it allows for each other have the same fields.
So the active layout of a ledger takes over from every one that was active before it, and the
upgrade to the active layout and logic succeeds wherever upgrades do, over storage as it was. -/
theorem checkUpgrade_run :
    (∀ a b c : Schema, (a.checkUpgrade b).isAllowed = true → (b.checkUpgrade c).isAllowed = true →
        (a.checkUpgrade c).isAllowed = true) ∧
      (∀ a : Schema, a.validate = .ok () → a.checkUpgrade a = .allow []) ∧
      (∀ a b : Schema, (a.checkUpgrade b).isAllowed = true → (b.checkUpgrade a).isAllowed = true →
        ∀ f, f ∈ a.fields ↔ f ∈ b.fields) ∧
      ∀ l : Ledger, l.ComesAbout → ∀ calls later,
        ((l.run calls).schema.checkUpgrade ((l.run calls).run later).schema).isAllowed = true ∧
        ((l.run calls).upgradeable = true → ∃ r,
          (l.run calls).upgrade (l.run calls).schema (l.run calls).logic =
            .ok ({ l.run calls with history := (l.run calls).history ++ [r] }, r)) := by
  simp only [Schema.isAllowed_checkUpgrade_iff]
  refine ⟨fun a b c hab hbc => hab.trans hbc, fun a => Schema.checkUpgrade_self, ?_, ?_⟩
  · intro a b hab hba f
    exact ⟨hab.mem_fields, hba.mem_fields⟩
  · intro l hl calls later
    have hcoherent := isCoherent_run hl calls
    refine ⟨keeps_run hcoherent.toIsBound later, fun hupgradeable => ?_⟩
    exact ⟨_, upgrade_self hcoherent hupgradeable⟩

/-- A mint, and two upgrades of which each adds a field. -/
def mintAndGrow : List Call :=
  [.mint 0xd0 0xd0 5, .upgrade .tokenV2 .tokenV2, .upgrade reservingSchema .tokenV2]

set_option maxRecDepth 100000 in
/-- Three layouts of a ledger, one after another, and the upgrade to the last of them again; and two
layouts that differ in their names only. -/
theorem checkUpgrade_run_mintAndGrow :
    (Schema.tokenV1.checkUpgrade .tokenV2).isAllowed = true ∧
      (Schema.tokenV2.checkUpgrade reservingSchema).isAllowed = true ∧
      (Schema.tokenV1.checkUpgrade reservingSchema).isAllowed = true ∧
      reservingSchema.checkUpgrade reservingSchema = .allow [] ∧
      (∀ f, f ∈ Schema.token.fields ↔ f ∈ Schema.tokenV1.fields) ∧
      ∃ l, IsDeployed .tokenV1 .tokenV1 0xd0 l ∧ (l.run mintAndGrow).schema = reservingSchema ∧
        (l.schema.checkUpgrade (l.run mintAndGrow).schema).isAllowed = true ∧
        ∃ r, (l.run mintAndGrow).upgrade (l.run mintAndGrow).schema (l.run mintAndGrow).logic =
          .ok ({ l.run mintAndGrow with history := (l.run mintAndGrow).history ++ [r] }, r) := by
  have hchecked : (Schema.tokenV1.checkUpgrade .tokenV2).isAllowed = true ∧
      (Schema.tokenV2.checkUpgrade reservingSchema).isAllowed = true ∧
      reservingSchema.validate = .ok () ∧
      (Schema.token.checkUpgrade .tokenV1).isAllowed = true ∧
      (Schema.tokenV1.checkUpgrade .token).isAllowed = true := by decide +kernel
  obtain ⟨hfirst, hsecond, hvalid, hthere, hback⟩ := hchecked
  obtain ⟨htrans, hself, hfields, hrun⟩ := checkUpgrade_run
  refine ⟨hfirst, hsecond, htrans _ _ _ hfirst hsecond, hself _ hvalid,
    hfields _ _ hthere hback, ?_⟩
  have htest : passes (deploy .tokenV1 .tokenV1 0xd0) (fun l => decide
      ((l.run mintAndGrow).schema = reservingSchema ∧ (l.run mintAndGrow).upgradeable = true)) =
      true := by
    decide +kernel
  obtain ⟨l, hdeployed, htest⟩ := exists_of_passes htest
  obtain ⟨hschema, hupgradeable⟩ := of_decide_eq_true htest
  have hl : l.ComesAbout := .deployed (.inl hdeployed)
  exact ⟨l, .inl hdeployed, hschema, (hrun l hl [] mintAndGrow).1,
    (hrun l hl mintAndGrow []).2 hupgradeable⟩

/-- **The history of a ledger gives its layout back.**  The records lead from the layout that was
deployed to the active one, whatever the calls were. -/
theorem lineage_run {schema : Schema} {logic : Logic} {deployer : Account} {l : Ledger}
    (hdeployed : IsDeployed schema logic deployer l) (calls : List Call) :
    Schema.Lineage schema (l.run calls).history (l.run calls).schema := by
  have hfresh : l.history = [] ∧ l.schema = schema := by
    obtain ⟨upgradeable, hfound⟩ := found_of_isDeployed hdeployed
    obtain ⟨-, b, -, -, -, hl⟩ := found_eq_ok_iff.mp hfound
    rw [hl]
    exact ⟨rfl, rfl⟩
  have hstart : Schema.Lineage schema l.history l.schema := by
    have hvalid := hdeployed.isBound.valid
    rw [hfresh.1]
    rw [hfresh.2] at hvalid ⊢
    exact .nil hvalid
  exact run_induction_of_isBound (P := fun m => Schema.Lineage schema m.history m.schema)
    (fun _ c hm => lineage_after hm c) hdeployed.isBound hstart calls

set_option maxRecDepth 100000 in
/-- The history of a ledger that grew twice: its two records list a field each, and the first
layout's four fields and these are those of the last. -/
theorem lineage_run_mintAndGrow :
    ∃ l, IsDeployed .tokenV1 .tokenV1 0xd0 l ∧ (l.run mintAndGrow).schema = reservingSchema ∧
      (l.run mintAndGrow).history.map (·.appendedFields.map (·.name)) =
        [["_totalAudited"], ["_reserve"]] ∧
      Schema.Lineage .tokenV1 (l.run mintAndGrow).history reservingSchema := by
  have htest : passes (deploy .tokenV1 .tokenV1 0xd0) (fun l => decide
      ((l.run mintAndGrow).schema = reservingSchema ∧
        (l.run mintAndGrow).history.map (·.appendedFields.map (·.name)) =
          [["_totalAudited"], ["_reserve"]])) = true := by
    decide +kernel
  obtain ⟨l, hdeployed, htest⟩ := exists_of_passes htest
  obtain ⟨hschema, hhistory⟩ := of_decide_eq_true htest
  have hlineage := lineage_run (.inl hdeployed) mintAndGrow
  rw [hschema] at hlineage
  exact ⟨l, .inl hdeployed, hschema, hhistory, hlineage⟩

end Ledger

end SlotLedger
