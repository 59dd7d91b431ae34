import SlotLedger.Proofs.Ledger.Upgrade

/-!
# The audit cap

A ledger has an audited counter once its schema declares one.  From then on no call takes it away
or lowers it, and no call lifts the supply above it.  The cap says nothing about a supply that was
there before the counter was: such a supply stays as it is until it falls, or the counter passes
it.

## Main definitions

* `Ledger.HasCounter`: the active schema declares the audited counter
* `Ledger.IsCapped`: the supply is at most the audited amount, or a supply from before the counter

## Main results

* `Ledger.totalAudited_after`: one call keeps the counter and does not lower it
* `Ledger.totalSupply_after`: one call lifts the supply at most to the counter
* `Ledger.hasCounter_run`, `Ledger.isCapped_run`: the same of runs
* `Ledger.audit_cap_run`: the cap in every ledger that a run reaches
-/

namespace SlotLedger.Ledger

/-- The active schema declares the audited counter. -/
def HasCounter (l : Ledger) : Prop := (l.schema.field? FieldName.totalAudited).isSome = true

/-- There is a counter, and the supply is at most the audited amount or `floor`. -/
def IsCapped (l : Ledger) (floor : Amount) : Prop :=
  ∃ y, l.totalAudited = some y ∧ l.totalSupply.toNat ≤ max floor.toNat y.toNat

/-- A bound ledger has an audited amount exactly where its schema declares the counter. -/
theorem hasCounter_iff {l : Ledger} (hl : l.IsBound) :
    l.HasCounter ↔ ∃ x, l.totalAudited = some x := by
  rw [HasCounter, ← Logic.isSome_totalAudited_of_bind hl.bound, ← Option.isSome_iff_exists,
    totalAudited, View.totalAudited, Option.isSome_map]
  rfl

/-! ## One call -/

section Call

variable {l : Ledger} (hl : l.IsBound) (c : Call)

include hl

/-- **One call keeps the counter and does not lower it.** -/
theorem totalAudited_after {x : Amount} (hx : l.totalAudited = some x) :
    ∃ y, (l.after c).totalAudited = some y ∧ x ≤ y := by
  rcases l.after_cases c with ⟨hcommits, hm⟩ | ⟨schema, logic, r, -, hupgrade⟩ | ⟨hm, -⟩
  · -- A commit reads the counter at the slot where it was.
    obtain ⟨slot, hslot, -⟩ := Option.map_eq_some_iff.mp hx
    have hafter : (l.after c).totalAudited = some ((l.after c).storage.load slot) := by
      rw [hm]
      exact congrArg (Option.map _) hslot
    refine ⟨_, hafter, hcommits.audited_le x hx _ ?_⟩
    rw [← view_after hm]
    exact hafter
  · exact ⟨x, totalAudited_upgrade hl hupgrade hx, BitVec.le_refl x⟩
  · rw [hm]
    exact ⟨x, hx, BitVec.le_refl x⟩

/-- **One call lifts the supply at most to the counter.** -/
theorem totalSupply_after {x : Amount} (hx : l.totalAudited = some x) :
    (l.after c).totalSupply ≤ l.totalSupply ∨
      ∃ y, (l.after c).totalAudited = some y ∧ (l.after c).totalSupply ≤ y := by
  rcases l.after_cases c with ⟨hcommits, hm⟩ | ⟨schema, logic, r, -, hupgrade⟩ | ⟨hm, -⟩
  · have hbound : l.bindings.totalAudited.isSome = true := by
      obtain ⟨slot, hslot, -⟩ := Option.map_eq_some_iff.mp hx
      exact Option.isSome_iff_exists.mpr ⟨slot, hslot⟩
    unfold totalSupply totalAudited
    rw [view_after hm]
    -- The gate looks at the cap only where the supply rises.
    by_cases hrise : l.view.totalSupply < (View.mk l.bindings (l.after c).storage.load).totalSupply
    · exact .inr (hcommits.supply_le_audited hbound hrise)
    · exact .inl (BitVec.not_lt.mp hrise)
  · exact .inl (BitVec.le_of_eq (totalSupply_upgrade hl hupgrade))
  · rw [hm]
    exact .inl (BitVec.le_refl _)

theorem isCapped_after {floor : Amount} (hcapped : l.IsCapped floor) :
    (l.after c).IsCapped floor := by
  obtain ⟨x, hx, hsupply⟩ := hcapped
  obtain ⟨y, hy, hle⟩ := totalAudited_after hl c hx
  have hxy : x.toNat ≤ y.toNat := hle
  refine ⟨y, hy, ?_⟩
  -- What bounded the supply before bounds it still, or the counter does by now.
  rcases totalSupply_after hl c hx with hfall | ⟨y', hy', hrise⟩
  · have hfall : (l.after c).totalSupply.toNat ≤ l.totalSupply.toNat := hfall
    omega
  · obtain rfl : y' = y := Option.some.inj (hy'.symm.trans hy)
    have hrise : (l.after c).totalSupply.toNat ≤ y'.toNat := hrise
    omega

/-- The call that brings the counter leaves the supply as it is, under the cap that this supply
sets. -/
theorem isCapped_of_activates (hbefore : ¬ l.HasCounter) (hafter : (l.after c).HasCounter) :
    (l.after c).totalSupply = l.totalSupply ∧ (l.after c).IsCapped l.totalSupply := by
  have hsupply : (l.after c).totalSupply = l.totalSupply := by
    rcases l.after_cases c with ⟨-, hm⟩ | ⟨schema, logic, r, -, hupgrade⟩ | ⟨hm, -⟩
    · -- A commit leaves the schema in place.
      rw [hm] at hafter
      exact absurd hafter hbefore
    · exact totalSupply_upgrade hl hupgrade
    · rw [hm]
  obtain ⟨y, hy⟩ := (hasCounter_iff (isBound_after hl c)).mp hafter
  refine ⟨hsupply, y, hy, ?_⟩
  rw [hsupply]
  exact Nat.le_max_left ..

end Call

/-! ## Runs -/

/-- **A run keeps the counter and does not lower it.** -/
theorem hasCounter_run {l : Ledger} (hl : l.IsBound) {x : Amount} (hx : l.totalAudited = some x)
    (calls : List Call) :
    (l.run calls).HasCounter ∧ ∃ y, (l.run calls).totalAudited = some y ∧ x ≤ y := by
  have hrun : ∃ y, (l.run calls).totalAudited = some y ∧ x ≤ y := by
    refine run_induction_of_isBound (P := fun l => ∃ y, l.totalAudited = some y ∧ x ≤ y) ?_ hl
      ⟨x, hx, BitVec.le_refl x⟩ calls
    rintro l c hl ⟨y, hy, hle⟩
    obtain ⟨z, hz, hle'⟩ := totalAudited_after hl c hy
    exact ⟨z, hz, BitVec.le_trans hle hle'⟩
  obtain ⟨y, hy, hle⟩ := hrun
  exact ⟨(hasCounter_iff (isBound_run hl calls)).mpr ⟨y, hy⟩, y, hy, hle⟩

/-- **A run keeps the cap.** -/
theorem isCapped_run {l : Ledger} (hl : l.IsBound) {floor : Amount} (hcapped : l.IsCapped floor)
    (calls : List Call) : (l.run calls).IsCapped floor :=
  run_induction_of_isBound (P := (IsCapped · floor)) (fun _ c hl => isCapped_after hl c) hl hcapped
    calls

/-- A fresh ledger with a counter has no more than is audited, whatever its initializer did. -/
theorem isCapped_of_isDeployed {schema : Schema} {logic : Logic} {deployer : Account} {l : Ledger}
    (hdeployed : IsDeployed schema logic deployer l) (hcounter : l.HasCounter) : l.IsCapped 0 := by
  obtain ⟨y, hy⟩ := (hasCounter_iff hdeployed.isBound).mp hcounter
  obtain ⟨slot, hslot, -⟩ := Option.map_eq_some_iff.mp hy
  refine ⟨y, hy, ?_⟩
  by_cases hrise : (0 : Amount) < l.totalSupply
  · -- The initializer raised the supply from empty storage, through the gate.
    obtain ⟨y', hy', hle⟩ := hdeployed.commits.supply_le_audited
      (Option.isSome_iff_exists.mpr ⟨slot, hslot⟩) hrise
    obtain rfl : y' = y := Option.some.inj (hy'.symm.trans hy)
    have hle : l.totalSupply.toNat ≤ y'.toNat := hle
    omega
  · have hzero : l.totalSupply.toNat ≤ (0 : Amount).toNat := BitVec.not_lt.mp hrise
    omega

/-- **The cap is never lifted and never exceeded**, by any calls under any logic.  A counter that
the schema declares stays and does not fall; an accepted call that raises the supply leaves it
at or below the audited amount; and the supply is at most the audited amount, or the supply at the
call that brought the counter if it came later than the deployment. -/
theorem audit_cap_run {schema : Schema} {logic : Logic} {deployer : Account} {l : Ledger}
    (hdeployed : IsDeployed schema logic deployer l) (calls : List Call) :
    ((l.run calls).HasCounter → ∃ x, (l.run calls).totalAudited = some x ∧
        ∀ later, ((l.run calls).run later).HasCounter ∧
          ∃ y, ((l.run calls).run later).totalAudited = some y ∧ x ≤ y) ∧
      (∀ c m, (l.run calls).HasCounter → (l.run calls).call c = .ok m →
        (l.run calls).totalSupply < m.totalSupply →
          ∃ y, m.totalAudited = some y ∧ m.totalSupply ≤ y) ∧
      (l.HasCounter → (l.run calls).IsCapped 0) ∧
      ∀ c, ¬ (l.run calls).HasCounter → ((l.run calls).after c).HasCounter →
        ((l.run calls).after c).totalSupply = (l.run calls).totalSupply ∧
          ∀ later, (((l.run calls).after c).run later).IsCapped (l.run calls).totalSupply := by
  have hl := isBound_run hdeployed.isBound calls
  refine ⟨fun hcounter => ?_, fun c m hcounter hm hrise => ?_, fun hcounter => ?_,
    fun c hbefore hafter => ?_⟩
  · obtain ⟨x, hx⟩ := (hasCounter_iff hl).mp hcounter
    exact ⟨x, hx, hasCounter_run hl hx⟩
  · obtain ⟨x, hx⟩ := (hasCounter_iff hl).mp hcounter
    have hsupply := totalSupply_after hl c hx
    rw [after_of_call hm] at hsupply
    exact hsupply.resolve_left (BitVec.not_le.mpr hrise)
  · exact isCapped_run hdeployed.isBound (isCapped_of_isDeployed hdeployed hcounter) calls
  · obtain ⟨hsupply, hcapped⟩ := isCapped_of_activates hl c hbefore hafter
    exact ⟨hsupply, isCapped_run (isBound_after hl c) hcapped⟩

instance (l : Ledger) : Decidable l.HasCounter := inferInstanceAs (Decidable (_ = true))

/-- An account is made an auditor and reports. -/
def firstReport : List Call := [.grantRole 0xd0 .audit 0xd0, .auditReport 0xd0 8]

set_option maxRecDepth 100000 in
/-- A second version mints what was reported, and a first version is upgraded after a mint. -/
theorem audit_cap_firstReport :
    (∃ l m, IsDeployed .tokenV2 .tokenV2 0xd0 l ∧
        (l.run firstReport).call (.mint 0xd0 0xd0 8) = .ok m ∧
        (l.run firstReport).totalSupply < m.totalSupply ∧
        (∃ y, m.totalAudited = some y ∧ m.totalSupply ≤ y) ∧ (l.run firstReport).IsCapped 0) ∧
      ∃ l, IsDeployed .tokenV1 .tokenV1 0xd0 l ∧ (l.run [.mint 0xd0 0xd0 5]).totalSupply = 5 ∧
        ∀ later, (((l.run [.mint 0xd0 0xd0 5]).after (.upgrade .tokenV2 .tokenV2)).run
          later).IsCapped 5 := by
  constructor
  · have htest : passes (deploy .tokenV2 .tokenV2 0xd0) (fun l =>
        decide (l.HasCounter ∧ (l.run firstReport).HasCounter) &&
          passes ((l.run firstReport).call (.mint 0xd0 0xd0 8)) fun m =>
            decide ((l.run firstReport).totalSupply < m.totalSupply)) = true := by
      decide +kernel
    obtain ⟨l, hdeployed, htest⟩ := exists_of_passes htest
    obtain ⟨hcounters, hminted⟩ := Bool.and_eq_true_iff.mp htest
    obtain ⟨hcounter, hlater⟩ := of_decide_eq_true hcounters
    obtain ⟨m, hm, hrise⟩ := exists_of_passes hminted
    have hrise := of_decide_eq_true hrise
    obtain ⟨-, hraised, hcapped, -⟩ := audit_cap_run (.inl hdeployed) firstReport
    exact ⟨l, m, .inl hdeployed, hm, hrise, hraised _ m hlater hm hrise, hcapped hcounter⟩
  · have htest : passes (deploy .tokenV1 .tokenV1 0xd0) (fun l =>
        decide ((l.run [.mint 0xd0 0xd0 5]).totalSupply = 5 ∧
          ¬ (l.run [.mint 0xd0 0xd0 5]).HasCounter ∧
          ((l.run [.mint 0xd0 0xd0 5]).after (.upgrade .tokenV2 .tokenV2)).HasCounter)) = true := by
      decide +kernel
    obtain ⟨l, hdeployed, htest⟩ := exists_of_passes htest
    obtain ⟨hsupply, hbefore, hafter⟩ := of_decide_eq_true htest
    obtain ⟨-, -, -, hactivates⟩ := audit_cap_run (.inl hdeployed) [.mint 0xd0 0xd0 5]
    refine ⟨l, .inl hdeployed, hsupply, fun later => ?_⟩
    have hcapped := (hactivates _ hbefore hafter).2 later
    rwa [hsupply] at hcapped

end SlotLedger.Ledger
