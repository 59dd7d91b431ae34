import SlotLedger.Proofs.Ledger.Refinement

/-!
# Accounts without a role

Minting, reporting, granting and revoking ask for a role of the caller, and a transfer or a
renouncement takes from the caller alone.  An upgrade has no caller and takes from nobody.  So as
long as only accounts without a role call, no role is won or lost, nothing is created, and nobody
else has less than before.  No such call leads to a role, hence whatever they do, one after another,
comes to no more than that.

## Main definitions

* `Operation.caller?`, `Operation.role?`: who calls, and the role that this takes
* `Operation.accounts`: the accounts that an operation names
* `Holdings.Spares`: what is left alone by accounts that hold no role

## Main results

* `Ledger.hasRole_of_apply`: what takes a role is accepted from its members only
* `Holdings.spares_effect`: the effect of an operation that takes no role
* `Ledger.spares_operate`, `Ledger.spares_operateAll`: one operation and a run of them
* `Ledger.operateAll_without_role`: accounts without a role win no privilege
-/

namespace SlotLedger

namespace Operation

/-- Who calls; an upgrade has no caller. -/
def caller? : Operation → Option Account
  | .mint caller .. | .auditReport caller _ | .transfer caller .. | .grantRole caller ..
  | .revokeRole caller .. | .renounceRole caller _ => some caller
  | .upgrade _ => none

/-- The role that the caller has to have, if any. -/
def role? : Operation → Option Role
  | .mint .. => some .minter
  | .auditReport .. => some .audit
  | .grantRole _ role _ | .revokeRole _ role _ => some role.administrator
  | .transfer .. | .renounceRole .. | .upgrade _ => none

/-- The accounts that an operation names: its caller, and those whose cells it writes. -/
def accounts (o : Operation) : List Account := o.caller?.toList ++ o.written

theorem mem_accounts_of_caller? {o : Operation} {caller : Account} (h : o.caller? = some caller) :
    caller ∈ o.accounts := by
  rw [accounts, h]
  exact List.mem_append_left _ (List.mem_singleton_self caller)

end Operation

/-! ## Roles that operations take -/

/-- **What takes a role is accepted from its members only.** -/
theorem Ledger.hasRole_of_apply {l m : Ledger} (htoken : l.logic.IsTokenOn l.schema)
    {registry : Registry} {o : Operation} {role : Role} (hrole : o.role? = some role)
    (h : l.apply registry o = .ok m) :
    ∃ caller, o.caller? = some caller ∧ l.hasRole role caller = true := by
  cases o with
  | mint caller target amount =>
    cases hrole
    obtain ⟨edits, hyields, -⟩ := exists_edits_of_execute (mapError_eq_ok_iff.mp h)
    rw [htoken.mint, Logic.yields_standardMint_iff] at hyields
    exact ⟨caller, rfl, hyields.1⟩
  | auditReport caller amount =>
    cases hrole
    obtain ⟨edits, hyields, -⟩ := exists_edits_of_execute (mapError_eq_ok_iff.mp h)
    -- Without a counter a report is refused whoever makes it.
    obtain ⟨version, hlogic | hlogic⟩ := htoken.auditReport
    · rw [hlogic] at hyields
      exact absurd hyields Logic.not_yields_unsupportedAuditReport
    · rw [hlogic, Logic.yields_countedAuditReport_iff] at hyields
      exact ⟨caller, rfl, hyields.1⟩
  | grantRole caller granted account =>
    cases hrole
    obtain ⟨edits, hyields, -⟩ := exists_edits_of_execute (mapError_eq_ok_iff.mp h)
    rw [htoken.grantRole, Logic.yields_setRole_iff] at hyields
    exact ⟨caller, rfl, hyields.1⟩
  | revokeRole caller revoked account =>
    cases hrole
    obtain ⟨edits, hyields, -⟩ := exists_edits_of_execute (mapError_eq_ok_iff.mp h)
    rw [htoken.revokeRole, Logic.yields_setRole_iff] at hyields
    exact ⟨caller, rfl, hyields.1⟩
  | transfer | renounceRole | upgrade => cases hrole

/-! ## What is left alone -/

namespace Holdings

/-- Of the accounts considered, all have the roles that they had, and those that do not call have no
less than before.  There is as much as before, and the counter is as before or new, at zero. -/
structure Spares (callers considered : Set Account) (before after : Holdings) : Prop where
  member : ∀ role, ∀ a ∈ considered, after.member role a = before.member role a
  supply : after.supply = before.supply
  audited : after.audited = before.audited ∨ before.audited = none ∧ after.audited = some 0
  balance : ∀ a ∈ considered, a ∉ callers → before.balance a ≤ after.balance a

variable {callers considered : Set Account} {h h' h'' : Holdings}

theorem Spares.refl (h : Holdings) : Spares callers considered h h :=
  ⟨fun _ _ _ => rfl, rfl, .inl rfl, fun _ _ _ => le_refl _⟩

theorem Spares.trans (hh' : Spares callers considered h h')
    (hh'' : Spares callers considered h' h'') : Spares callers considered h h'' where
  member role a ha := (hh''.member role a ha).trans (hh'.member role a ha)
  supply := hh''.supply.trans hh'.supply
  audited := by
    rcases hh'.audited with hsame | ⟨hnone, hnew⟩
    · rw [← hsame]
      exact hh''.audited
    · -- A counter that came stays, as it cannot come again.
      rcases hh''.audited with hsame | ⟨hnone', -⟩
      · exact .inr ⟨hnone, hsame.trans hnew⟩
      · rw [hnew] at hnone'
        cases hnone'
  balance a ha hother := (hh'.balance a ha hother).trans (hh''.balance a ha hother)

/-- What spares on one side spares on the other where the two agree. -/
theorem Spares.congr (hh' : Spares callers considered h h')
    (hagree : AgreeOn considered h'' h') : Spares callers considered h h'' where
  member role a ha := (hagree.member role a ha).trans (hh'.member role a ha)
  supply := hagree.supply.trans hh'.supply
  audited := by
    rw [hagree.audited]
    exact hh'.audited
  balance a ha hother := by
    rw [hagree.balance a ha]
    exact hh'.balance a ha hother

/-- **An operation that takes no role** spares what accounts without a role have to leave alone. -/
theorem spares_effect {registry : Registry} {o : Operation} (hfree : o.role? = none)
    (hcaller : ∀ u, o.caller? = some u → u ∈ callers ∧ ∀ role, h.member role u = false) :
    Spares callers considered h (o.effect registry h) := by
  cases o with
  | mint | auditReport | grantRole | revokeRole => cases hfree
  | transfer caller receiver amount =>
    rw [Operation.effect]
    split
    · exact .refl h
    · refine ⟨fun _ _ _ => rfl, rfl, .inl rfl, ?_⟩
      intro a _ hother
      have hne : a ≠ caller := fun heq => hother (heq ▸ (hcaller caller rfl).1)
      -- Of the two balances that change, only the caller's falls.
      simp only [setBalance, Function.update_apply, if_neg hne]
      split
      · rename_i hreceiver
        rw [hreceiver]
        omega
      · exact le_refl _
  | renounceRole caller role =>
    refine ⟨?_, rfl, .inl rfl, fun _ _ _ => le_refl _⟩
    intro r a _
    have hnone := (hcaller caller rfl).2 role
    -- The caller leaves a role that it does not have.
    simp only [Operation.effect, setMember, Function.update_apply]
    split
    · rename_i hrole
      subst hrole
      rw [Function.update_apply]
      split
      · rename_i hself
        rw [hself, hnone]
      · rfl
    · rfl
  | upgrade name =>
    simp only [Operation.effect]
    split
    · exact .refl h
    · split
      · refine ⟨fun _ _ _ => rfl, rfl, ?_, fun _ _ _ => le_refl _⟩
        cases haudited : h.audited with
        | none => exact .inr ⟨rfl, rfl⟩
        | some x => exact .inl rfl
      · exact .refl h

end Holdings

namespace Ledger

/-! ## Within the builtin registry -/

section Builtin

variable {d : Deployment} {l : Ledger} (hdeployed : d.deploy .builtin = .ok l)
  (operations : List Operation) {considered : Set Account}
  (hdistinct : l.bindings.CellsDistinct considered) (hhigh : l.bindings.CellsHigh considered)
  {callers : Set Account}

include hdeployed hdistinct hhigh

/-- **One operation** of a caller without a role. -/
theorem spares_operate {o : Operation}
    (hcaller : ∀ u, o.caller? = some u →
      u ∈ callers ∧ ∀ role, (l.operateAll .builtin operations).hasRole role u = false)
    (hnamed : ∀ a ∈ o.accounts, a ∈ considered) :
    Holdings.Spares callers considered (l.operateAll .builtin operations).holdings
      ((l.operateAll .builtin operations).operate .builtin o).holdings := by
  rw [operate]
  cases happly : (l.operateAll .builtin operations).apply .builtin o with
  | error e => exact .refl _
  | ok m =>
    have hfree : o.role? = none := by
      by_contra htaken
      obtain ⟨role, hrole⟩ := Option.ne_none_iff_exists'.mp htaken
      obtain ⟨u, hu, hmember⟩ :=
        hasRole_of_apply (isTokenOn_operateAll hdeployed operations) hrole happly
      rw [(hcaller u hu).2 role] at hmember
      cases hmember
    have hwritten : ∀ a ∈ o.written, a ∈ considered := fun a ha =>
      hnamed a (List.mem_append_right _ ha)
    have hagree := agreeOn_apply_of_builtin hdeployed operations hdistinct hhigh hwritten happly
    exact (Holdings.spares_effect hfree hcaller).congr hagree

/-- **A run** of operations of callers without a role. -/
theorem spares_operateAll
    (hroleless : ∀ u ∈ callers, ∀ role,
      (l.operateAll .builtin operations).hasRole role u = false)
    {later : List Operation} (hcallers : ∀ o ∈ later, ∀ u, o.caller? = some u → u ∈ callers)
    (hnamed : ∀ o ∈ later, ∀ a ∈ o.accounts, a ∈ considered) :
    Holdings.Spares callers considered (l.operateAll .builtin operations).holdings
      ((l.operateAll .builtin operations).operateAll .builtin later).holdings := by
  -- On the operations, the last one first: those before it have brought its caller no role.
  induction later using List.reverseRecOn with
  | nil => exact .refl _
  | append_singleton rest o ih =>
    have hrest := ih (fun o' ho' => hcallers o' (List.mem_append_left _ ho'))
      fun o' ho' => hnamed o' (List.mem_append_left _ ho')
    have ho : o ∈ rest ++ [o] := List.mem_append_right _ (List.mem_singleton_self o)
    have hcaller : ∀ u, o.caller? = some u → u ∈ callers ∧
        ∀ role, (l.operateAll .builtin (operations ++ rest)).hasRole role u = false := by
      intro u hu
      have hmem := hcallers o ho u hu
      have hconsidered := hnamed o ho u (Operation.mem_accounts_of_caller? hu)
      refine ⟨hmem, fun role => ?_⟩
      rw [operateAll_append]
      exact (hrest.member role u hconsidered).trans (hroleless u hmem role)
    have hstep := spares_operate hdeployed (operations ++ rest) hdistinct hhigh hcaller
      (hnamed o ho)
    rw [operateAll_append] at hstep ⊢
    exact hrest.trans hstep

/-- **Accounts without a role win no privilege.**  From every ledger that operations within the
builtin registry lead to, and through any later operations that only such accounts call, upgrades
among them, nobody wins or loses a role, the supply and an active counter stay, a new counter stands
at zero, and no other account has less than before.  The accounts considered are those that the
later operations name and any others. -/
theorem operateAll_without_role
    (hroleless : ∀ u ∈ callers, ∀ role,
      (l.operateAll .builtin operations).hasRole role u = false)
    (later : List Operation) (hcallers : ∀ o ∈ later, ∀ u, o.caller? = some u → u ∈ callers)
    (hnamed : ∀ o ∈ later, ∀ a ∈ o.accounts, a ∈ considered) :
    (∀ role, ∀ a ∈ considered,
        ((l.operateAll .builtin operations).operateAll .builtin later).hasRole role a =
          (l.operateAll .builtin operations).hasRole role a) ∧
      ((l.operateAll .builtin operations).operateAll .builtin later).totalSupply =
        (l.operateAll .builtin operations).totalSupply ∧
      (((l.operateAll .builtin operations).operateAll .builtin later).totalAudited =
          (l.operateAll .builtin operations).totalAudited ∨
        (l.operateAll .builtin operations).totalAudited = none ∧
          ((l.operateAll .builtin operations).operateAll .builtin later).totalAudited = some 0) ∧
      ∀ a ∈ considered, a ∉ callers →
        (l.operateAll .builtin operations).balanceOf a ≤
          ((l.operateAll .builtin operations).operateAll .builtin later).balanceOf a := by
  have hspares := spares_operateAll hdeployed operations hdistinct hhigh hroleless hcallers hnamed
  -- The holdings have the words as numbers.
  have hwords : Function.Injective fun x : Amount => (x.toNat : ℤ) := fun x y hxy =>
    BitVec.eq_of_toNat_eq (Int.ofNat_inj.mp hxy)
  refine ⟨hspares.member, hwords hspares.supply, ?_, ?_⟩
  · rcases hspares.audited with hsame | ⟨hnone, hnew⟩
    · exact .inl (Option.map_injective hwords hsame)
    · exact .inr ⟨Option.map_eq_none_iff.mp hnone, Option.map_injective hwords hnew⟩
  · intro a ha hother
    exact Int.ofNat_le.mp (hspares.balance a ha hother)

end Builtin

/-- A mint for an account that has no role. -/
def funding : List Operation := [.mint 0xd0 0xb0 5]

/-- What an account without a role may try: but for the upgrade and the transfer, all is refused or
without effect. -/
def attempts : List Operation :=
  [.mint 0xb0 0xb0 9, .upgrade "TokenUpgradeableV2", .grantRole 0xb0 .minter 0xb0,
    .renounceRole 0xb0 .defaultAdmin, .transfer 0xb0 0xd0 1]

set_option maxRecDepth 100000 in
/-- The attempts of an account without a role: the counter comes with the upgrade, and the deployer
is paid one. -/
theorem operateAll_without_role_attempts :
    ∃ l, firstVersion.deploy .builtin = .ok l ∧
      (∀ role, (l.operateAll .builtin funding).hasRole role 0xb0 = false) ∧
      ((l.operateAll .builtin funding).operateAll .builtin attempts).balanceOf 0xd0 = 1 ∧
      (∀ role, ∀ a ∈ [0xd0, 0xb0],
        ((l.operateAll .builtin funding).operateAll .builtin attempts).hasRole role a =
          (l.operateAll .builtin funding).hasRole role a) ∧
      ((l.operateAll .builtin funding).operateAll .builtin attempts).totalSupply = 5 ∧
      ((l.operateAll .builtin funding).operateAll .builtin attempts).totalAudited = some 0 ∧
      (l.operateAll .builtin funding).balanceOf 0xd0 ≤
        ((l.operateAll .builtin funding).operateAll .builtin attempts).balanceOf 0xd0 := by
  have htest : passes (firstVersion.deploy .builtin) (fun l => decide
      ((l.bindings.balances = 1 ∧ l.bindings.roles = 3) ∧
        (∀ role ∈ Role.all, (l.operateAll .builtin funding).hasRole role 0xb0 = false) ∧
        (l.operateAll .builtin funding).totalSupply = 5 ∧
        ((l.operateAll .builtin funding).operateAll .builtin attempts).bindings.totalAudited ≠
          none ∧
        (l.operateAll .builtin funding).totalAudited = none ∧
        ((l.operateAll .builtin funding).operateAll .builtin attempts).balanceOf 0xd0 = 1)) =
      true := by
    decide +kernel
  obtain ⟨l, hdeployed, htest⟩ := exists_of_passes htest
  obtain ⟨⟨hbalances, hroles⟩, hroleless, hsupply, hcounter, hnone, hpaid⟩ :=
    of_decide_eq_true htest
  obtain ⟨hdistinct, hhigh⟩ := Bindings.cells_of_token hbalances hroles
  have hroleless' : ∀ u ∈ ({0xb0} : Set Account), ∀ role,
      (l.operateAll .builtin funding).hasRole role u = false := by
    rintro u rfl role
    exact hroleless role role.mem_all
  have hcallers : ∀ o ∈ attempts, ∀ u, o.caller? = some u → u ∈ ({0xb0} : Set Account) := by
    intro o ho u hu
    have hchecked : ∀ o ∈ attempts, o.caller? = none ∨ o.caller? = some 0xb0 := by decide
    rcases hchecked o ho with hnobody | hcaller
    · rw [hnobody] at hu
      cases hu
    · exact Set.mem_singleton_iff.mpr (Option.some.inj (hu.symm.trans hcaller))
  have hnamed : ∀ o ∈ attempts, o.accounts ⊆ [0xd0, 0xb0] := by decide
  obtain ⟨hmember, hsupply', haudited, hbalance⟩ := operateAll_without_role hdeployed funding
    hdistinct hhigh hroleless' attempts hcallers hnamed
  refine ⟨l, hdeployed, hroleless' 0xb0 rfl, hpaid, hmember, hsupply'.trans hsupply, ?_,
    hbalance 0xd0 (by decide) (by decide)⟩
  -- The layout after the attempts declares the counter, so there is one.
  rcases haudited with hsame | ⟨-, hnew⟩
  · rw [hnone] at hsame
    exact absurd (Option.map_eq_none_iff.mp hsame) hcounter
  · exact hnew

end Ledger

end SlotLedger
