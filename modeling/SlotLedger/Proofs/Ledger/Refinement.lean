import SlotLedger.Proofs.Ledger.Holdings
import SlotLedger.Proofs.Ledger.Movement
import SlotLedger.Proofs.Ledger.Preservation

/-!
# The ledger refines its holdings

Each accepted operation comes to the change of the holdings that its name says, in exact numbers and
in no other entry.  What an operation stages is added up on the abstract side; the bounds that its
logic checks make the sums of words the sums of numbers.

## Main definitions

* `Operation.effect`: what an accepted operation does to the holdings
* `Operation.written`: the accounts whose cells an operation writes
* `Logic.IsTokenOn`: the methods are those of the token

## Main results

* `Ledger.apply_refines`: an accepted operation has its effect and no other
* `Ledger.operate_refines_holdings`: the same of all ledgers of the builtin registry
* `Ledger.operateAll_refines`: operations come to the effects of the accepted ones in order
-/

namespace SlotLedger

/-! ## Operations -/

namespace Operation

/-- The accounts whose cells an operation writes. -/
def written : Operation → List Account
  | .mint _ target _ => [target]
  | .transfer caller receiver _ => [caller, receiver]
  | .grantRole _ _ account | .revokeRole _ _ account => [account]
  | .renounceRole caller _ => [caller]
  | .auditReport .. | .upgrade _ => []

/-- What an accepted operation does to the holdings.  An upgrade only brings the counter, at zero,
where there is none and the new layout declares one. -/
def effect (registry : Registry) : Operation → Holdings → Holdings
  | .mint _ target amount, h =>
    { h.setBalance target (h.balance target + amount.toNat) with supply := h.supply + amount.toNat }
  | .auditReport _ amount, h => { h with audited := h.audited.map (· + (amount.toNat : ℤ)) }
  | .transfer caller receiver amount, h =>
    if receiver = caller then h
    else (h.setBalance caller (h.balance caller - amount.toNat)).setBalance receiver
      (h.balance receiver + amount.toNat)
  | .grantRole _ role account, h => h.setMember role account true
  | .revokeRole _ role account, h => h.setMember role account false
  | .renounceRole caller role, h => h.setMember role caller false
  | .upgrade implementation, h =>
    match registry.get? implementation with
    | none => h
    | some i =>
      if (i.schema.field? FieldName.totalAudited).isSome then
        { h with audited := some (h.audited.getD 0) }
      else h

end Operation

theorem Operation.agreeOn_effect {accounts : Set Account} {h h' : Holdings}
    (hh' : Holdings.AgreeOn accounts h h') (registry : Registry) {o : Operation}
    (hwritten : ∀ a ∈ o.written, a ∈ accounts) :
    Holdings.AgreeOn accounts (o.effect registry h) (o.effect registry h') := by
  -- An effect reads only accounts that it writes, and on these the two agree.
  cases o with
  | mint caller target amount =>
    have htarget := hh'.balance target (hwritten target (by simp [written]))
    have hset := hh'.setBalance target (h.balance target + amount.toNat)
    simp only [effect, ← htarget, ← hh'.supply]
    exact ⟨hset.balance, hset.member, rfl, hset.audited⟩
  | auditReport caller amount =>
    exact ⟨hh'.balance, hh'.member, hh'.supply, congrArg (Option.map _) hh'.audited⟩
  | transfer caller receiver amount =>
    have hcaller := hh'.balance caller (hwritten caller (by simp [written]))
    have hreceiver := hh'.balance receiver (hwritten receiver (by simp [written]))
    simp only [effect, ← hcaller, ← hreceiver]
    split
    · exact hh'
    · exact (hh'.setBalance caller _).setBalance receiver _
  | grantRole caller role account => exact hh'.setMember role account true
  | revokeRole caller role account => exact hh'.setMember role account false
  | renounceRole caller role => exact hh'.setMember role caller false
  | upgrade name =>
    simp only [effect]
    split
    · exact hh'
    · split
      · exact ⟨hh'.balance, hh'.member, hh'.supply, by rw [hh'.audited]⟩
      · exact hh'

/-- The logic behaves as the token's on a layout whose fields end in range. -/
structure Logic.IsTokenOn (logic : Logic) (schema : Schema) : Prop
    extends logic.IsStandardOn schema where
  auditReport : ∃ version, logic.auditReport = Logic.unsupportedAuditReport version ∨
    logic.auditReport = Logic.countedAuditReport version
  grantRole : logic.grantRole = Logic.setRole true
  revokeRole : logic.revokeRole = Logic.setRole false
  renounceRole : logic.renounceRole = Logic.standardRenounceRole
  endsInRange : ∀ f ∈ schema.fields, f.EndsInRange

/-- Every implementation of the token behaves as a token. -/
theorem Implementation.isTokenOn_of_mem_builtin {i : Implementation}
    (hi : i ∈ Implementation.builtin) : i.logic.IsTokenOn i.schema := by
  have hstandard := Implementation.isStandardOn_of_mem_builtin hi
  have hrange : ∀ i ∈ Implementation.builtin, ∀ f ∈ i.schema.fields, f.EndsInRange := by
    decide +kernel
  have hends := hrange i hi
  simp only [Implementation.builtin, List.mem_cons, List.not_mem_nil, or_false] at hi
  rcases hi with rfl | rfl | rfl | rfl
  · exact ⟨hstandard, ⟨1, .inl rfl⟩, rfl, rfl, rfl, hends⟩
  · exact ⟨hstandard, ⟨1, .inl rfl⟩, rfl, rfl, rfl, hends⟩
  · exact ⟨hstandard, ⟨2, .inr rfl⟩, rfl, rfl, rfl, hends⟩
  · exact ⟨hstandard, ⟨2, .inr rfl⟩, rfl, rfl, rfl, hends⟩

namespace Ledger

/-- What a ledger says. -/
def holdings (l : Ledger) : Holdings := l.view.holdings

theorem balance_holdings (l : Ledger) (a : Account) :
    l.holdings.balance a = ((l.balanceOf a).toNat : ℤ) := rfl

/-- An accepted operation leaves the storage of the edits that it yields. -/
theorem exists_edits_of_execute {l m : Ledger} {operation : Logic → Stage Unit}
    (h : l.execute operation = .ok m) :
    ∃ edits, (operation l.logic).Yields l.transaction () edits ∧
      m.view = (l.transaction.applyAll edits).view := by
  obtain ⟨hresult, hcommits, hm⟩ := execute_eq_ok_iff.mp h
  refine ⟨(operation l.logic l.transaction).edits, ?_, ?_⟩
  · rw [Stage.Yields, ← hresult]
  · rw [view, hm]
    exact hcommits.view_eq

section Token

variable {l m : Ledger} {accounts : Set Account} (hb : l.bindings.Separates accounts)

include hb

/-- An accepted operation says afterwards what its edits make of what it said before. -/
theorem agreeOn_edited {edits : List Edit} (hm : m.view = (l.transaction.applyAll edits).view)
    (hedits : ∀ e ∈ edits, e.datum.IsAmong accounts) :
    Holdings.AgreeOn accounts m.holdings (l.holdings.edited edits) := by
  rw [holdings, hm]
  exact hb.agreeOn_applyAll rfl hedits

variable (registry : Registry) {caller account : Account} {amount : Amount} {role : Role}

theorem agreeOn_mint (hlogic : l.logic.mint = Logic.standardMint) {target : Account}
    (htarget : target ∈ accounts) (h : l.mint caller target amount = .ok m) :
    Holdings.AgreeOn accounts m.holdings
      ((Operation.mint caller target amount).effect registry l.holdings) := by
  obtain ⟨edits, hyields, hm⟩ := exists_edits_of_execute h
  rw [hlogic, Logic.yields_standardMint_iff] at hyields
  obtain ⟨-, -, -, hbalance, hsupply, rfl⟩ := hyields
  have hedited := agreeOn_edited hb hm (isAmong_of_mem_mintEdits htarget)
  -- Neither sum leaves the range.
  have hbalance' : (l.view.balanceOf target + amount).toNat =
      (l.view.balanceOf target).toNat + amount.toNat := BitVec.toNat_add_of_lt hbalance
  have hsupply' : (l.view.totalSupply + amount).toNat =
      l.view.totalSupply.toNat + amount.toNat := BitVec.toNat_add_of_lt hsupply
  have heffect : l.holdings.edited (Logic.mintEdits l.view target amount) =
      (Operation.mint caller target amount).effect registry l.holdings := by
    simp only [Holdings.edited, Logic.mintEdits, List.foldl_cons, List.foldl_nil, Edit.effect,
      hbalance', hsupply', Operation.effect, holdings, View.balance_holdings,
      View.supply_holdings, Int.natCast_add]
  rwa [← heffect]

theorem agreeOn_transfer (hlogic : l.logic.transfer = Logic.standardTransfer) {receiver : Account}
    (hcaller : caller ∈ accounts) (hreceiver : receiver ∈ accounts)
    (h : l.transfer caller receiver amount = .ok m) :
    Holdings.AgreeOn accounts m.holdings
      ((Operation.transfer caller receiver amount).effect registry l.holdings) := by
  obtain ⟨edits, hyields, hm⟩ := exists_edits_of_execute h
  have hview : View.mk l.bindings l.storage.load = l.view := rfl
  rw [hlogic, transaction, Transaction.yields_transfer_iff hb hcaller hreceiver, hview] at hyields
  obtain ⟨-, henough, hroom, rfl⟩ := hyields
  have hedited := agreeOn_edited hb hm (isAmong_of_mem_transferEdits hcaller hreceiver)
  have hleft : (l.view.balanceOf caller - amount).toNat =
      (l.view.balanceOf caller).toNat - amount.toNat := BitVec.toNat_sub_of_le henough
  have hreceived := BitVec.toNat_add_of_lt hroom
  have heffect : l.holdings.edited (transferEdits l.view caller receiver amount) =
      (Operation.transfer caller receiver amount).effect registry l.holdings := by
    simp only [Holdings.edited, transferEdits, List.foldl_cons, List.foldl_nil, Edit.effect,
      Operation.effect]
    by_cases hself : receiver = caller
    · -- The receiver reads what the debit left, so the balance is back where it was.
      subst hself
      rw [if_pos rfl] at hreceived
      rw [if_pos rfl, if_pos rfl, Holdings.setBalance_setBalance, hreceived, hleft,
        Nat.sub_add_cancel henough]
      exact Holdings.setBalance_self l.holdings receiver
    · rw [if_neg hself] at hreceived
      rw [if_neg hself, if_neg hself, hreceived, hleft, Int.natCast_add, Int.natCast_sub henough]
      rfl
  rwa [← heffect]

/-- An accepted operation that yields one change of a role makes that change. -/
theorem agreeOn_role {operation : Logic → Stage Unit} {member : Bool}
    (hedits : ∀ edits, (operation l.logic).Yields l.transaction () edits →
      edits = [.role role account member])
    (haccount : account ∈ accounts) (h : l.execute operation = .ok m) :
    Holdings.AgreeOn accounts m.holdings (l.holdings.setMember role account member) := by
  obtain ⟨edits, hyields, hm⟩ := exists_edits_of_execute h
  obtain rfl := hedits edits hyields
  exact agreeOn_edited hb hm (List.forall_mem_singleton.mpr haccount)

theorem agreeOn_auditReport
    (hlogic : ∃ version, l.logic.auditReport = Logic.unsupportedAuditReport version ∨
      l.logic.auditReport = Logic.countedAuditReport version)
    (h : l.auditReport caller amount = .ok m) :
    Holdings.AgreeOn accounts m.holdings
      ((Operation.auditReport caller amount).effect registry l.holdings) := by
  obtain ⟨edits, hyields, hm⟩ := exists_edits_of_execute h
  -- Only a logic with a counter accepts a report.
  obtain ⟨version, hlogic | hlogic⟩ := hlogic
  · rw [hlogic] at hyields
    exact absurd hyields Logic.not_yields_unsupportedAuditReport
  · rw [hlogic, Logic.yields_countedAuditReport_iff] at hyields
    obtain ⟨-, ⟨rfl, rfl⟩ | ⟨-, current, hcurrent, hroom, rfl⟩⟩ := hyields
    · -- A report of zero adds nothing to the counter.
      have hedited := agreeOn_edited hb hm (by simp)
      have heffect : (Operation.auditReport caller 0).effect registry l.holdings = l.holdings := by
        simp [Operation.effect]
      rwa [heffect]
    · have hedited := agreeOn_edited hb hm
        (List.forall_mem_singleton.mpr (by trivial))
      have haudited : l.view.totalAudited = some current := hcurrent
      have hnext := BitVec.toNat_add_of_lt hroom
      have heffect : l.holdings.edited [.totalAudited (current + amount)] =
          (Operation.auditReport caller amount).effect registry l.holdings := by
        simp only [Holdings.edited, List.foldl_cons, List.foldl_nil, Edit.effect,
          Operation.effect, holdings, View.audited_holdings, haudited, Option.map_some, hnext,
          Int.natCast_add]
      rwa [← heffect]

end Token

/-- An accepted upgrade says afterwards what it said before, and brings the counter at zero where
the new layout is the first to declare one. -/
theorem agreeOn_upgrade {l m : Ledger} (hl : l.IsBound) {registry : Registry} {name : String}
    {i : Implementation} (hi : registry.get? name = some i) {r : UpgradeRecord}
    (hupgrade : l.upgrade i.schema i.logic = .ok (m, r))
    (hrange : ∀ f ∈ i.schema.fields, f.EndsInRange) {accounts : Set Account}
    (hhigh : l.bindings.CellsHigh accounts) :
    Holdings.AgreeOn accounts m.holdings ((Operation.upgrade name).effect registry l.holdings) := by
  have htakesOver := takesOver_of_upgrade hl hupgrade hrange hhigh
  have hm : m.IsBound := by
    obtain ⟨⟨-, -, -, hvalid⟩, b, hbind, rfl, -⟩ := upgrade_eq_ok_iff.mp hupgrade
    exact ⟨hvalid, hbind⟩
  have hbalance : ∀ a ∈ accounts, m.holdings.balance a = l.holdings.balance a := fun a ha =>
    congrArg (fun x : Amount => (x.toNat : ℤ)) (htakesOver.balanceOf a ha)
  have hsupply : m.holdings.supply = l.holdings.supply :=
    congrArg (fun x : Amount => (x.toNat : ℤ)) htakesOver.totalSupply
  have haudited : ∀ k : Ledger, k.holdings.audited = k.totalAudited.map fun x => (x.toNat : ℤ) :=
    fun _ => rfl
  have hcounter : m.HasCounter ↔ (i.schema.field? FieldName.totalAudited).isSome = true := by
    rw [HasCounter, schema_upgrade hupgrade]
  simp only [Operation.effect, hi]
  split
  · rename_i hdeclared
    refine ⟨hbalance, htakesOver.hasRole, hsupply, ?_⟩
    rw [haudited, haudited]
    -- A counter that was there is taken over, and a new one starts at zero.
    by_cases hbefore : l.HasCounter
    · obtain ⟨x, hx⟩ := (hasCounter_iff hl).mp hbefore
      rw [htakesOver.totalAudited hbefore, hx]
      rfl
    · have hnone : l.totalAudited = none := Option.eq_none_iff_forall_ne_some.mpr fun x hx =>
        hbefore ((hasCounter_iff hl).mpr ⟨x, hx⟩)
      rw [htakesOver.newCounter hbefore (hcounter.mpr hdeclared), hnone]
      rfl
  · rename_i hundeclared
    refine ⟨hbalance, htakesOver.hasRole, hsupply, ?_⟩
    -- Without a counter afterwards there was none before, as a counter stays.
    have hafter : ∀ x, m.totalAudited ≠ some x := fun x hx =>
      hundeclared (hcounter.mp ((hasCounter_iff hm).mpr ⟨x, hx⟩))
    have hbefore : ∀ x, l.totalAudited ≠ some x := fun x hx =>
      hafter x (totalAudited_upgrade hl hupgrade hx)
    rw [haudited, haudited, Option.eq_none_iff_forall_ne_some.mpr hafter,
      Option.eq_none_iff_forall_ne_some.mpr hbefore]

/-- **An accepted operation has its effect and no other.** -/
theorem apply_refines {l m : Ledger} (hl : l.IsBound) (htoken : l.logic.IsTokenOn l.schema)
    {registry : Registry}
    (hregistry : ∀ name i, registry.get? name = some i → ∀ f ∈ i.schema.fields, f.EndsInRange)
    {accounts : Set Account} (hdistinct : l.bindings.CellsDistinct accounts)
    (hhigh : l.bindings.CellsHigh accounts) {o : Operation}
    (hwritten : ∀ a ∈ o.written, a ∈ accounts) (h : l.apply registry o = .ok m) :
    Holdings.AgreeOn accounts m.holdings (o.effect registry l.holdings) := by
  have hb : l.bindings.Separates accounts :=
    separates_of_isStandard ⟨hl, htoken.toIsStandardOn⟩ hdistinct hhigh
  cases o with
  | mint caller target amount =>
    exact agreeOn_mint hb registry htoken.mint (hwritten target (by simp [Operation.written]))
      (mapError_eq_ok_iff.mp h)
  | auditReport caller amount =>
    exact agreeOn_auditReport hb registry htoken.auditReport (mapError_eq_ok_iff.mp h)
  | transfer caller receiver amount =>
    exact agreeOn_transfer hb registry htoken.transfer
      (hwritten caller (by simp [Operation.written]))
      (hwritten receiver (by simp [Operation.written])) (mapError_eq_ok_iff.mp h)
  | grantRole caller role account =>
    refine agreeOn_role hb (fun edits hyields => ?_)
      (hwritten account (by simp [Operation.written])) (mapError_eq_ok_iff.mp h)
    rw [htoken.grantRole] at hyields
    exact (Logic.yields_setRole_iff.mp hyields).2
  | revokeRole caller role account =>
    refine agreeOn_role hb (fun edits hyields => ?_)
      (hwritten account (by simp [Operation.written])) (mapError_eq_ok_iff.mp h)
    rw [htoken.revokeRole] at hyields
    exact (Logic.yields_setRole_iff.mp hyields).2
  | renounceRole caller role =>
    refine agreeOn_role hb (fun edits hyields => ?_)
      (hwritten caller (by simp [Operation.written])) (mapError_eq_ok_iff.mp h)
    rw [htoken.renounceRole] at hyields
    exact Stage.yields_edit_iff.mp hyields
  | upgrade name =>
    rw [apply] at h
    cases hi : registry.get? name with
    | none =>
      rw [hi] at h
      cases h
    | some i =>
      rw [hi] at h
      obtain ⟨⟨m', r⟩, hupgrade, rfl⟩ := map_eq_ok_iff.mp (mapError_eq_ok_iff.mp h)
      exact agreeOn_upgrade hl hi hupgrade (hregistry name i hi) hhigh

/-! ## Within the builtin registry -/

section Builtin

variable {d : Deployment} {l : Ledger} (hdeployed : d.deploy .builtin = .ok l)
  (operations : List Operation) {considered : Set Account}
  (hdistinct : l.bindings.CellsDistinct considered) (hhigh : l.bindings.CellsHigh considered)

include hdeployed

omit hdistinct hhigh in
/-- The logic behind every ledger of the builtin registry is the token's. -/
theorem isTokenOn_operateAll :
    (l.operateAll .builtin operations).logic.IsTokenOn
      (l.operateAll .builtin operations).schema := by
  obtain ⟨name, i, hi, hschema, hlogic⟩ :=
    isKnown_operateAll (isKnown_of_deploy hdeployed) operations
  rw [hschema, hlogic]
  exact Implementation.isTokenOn_of_mem_builtin (Registry.mem_of_get?_ofList hi).1

include hdistinct hhigh

theorem agreeOn_apply_of_builtin {o : Operation} (hwritten : ∀ a ∈ o.written, a ∈ considered)
    {m : Ledger} (h : (l.operateAll .builtin operations).apply .builtin o = .ok m) :
    Holdings.AgreeOn considered m.holdings
      (o.effect .builtin (l.operateAll .builtin operations).holdings) := by
  have hapart := keepsApart_of_builtin hdeployed operations hdistinct hhigh
  have hrange : ∀ name i, Registry.builtin.get? name = some i →
      ∀ f ∈ i.schema.fields, f.EndsInRange := fun _ _ hi =>
    (Implementation.isTokenOn_of_mem_builtin (Registry.mem_of_get?_ofList hi).1).endsInRange
  exact apply_refines hapart.isBound (isTokenOn_operateAll hdeployed operations) hrange
    hapart.distinct hapart.high hwritten h

/-- **The ledger refines its holdings.**  In every ledger that operations within the builtin
registry lead to, an accepted operation has its effect on what the ledger says and no other, and a
refused one leaves the ledger as it is.  The accounts considered are those that the operation writes
and any others. -/
theorem operate_refines_holdings {o : Operation} (hwritten : ∀ a ∈ o.written, a ∈ considered) :
    (∀ m, (l.operateAll .builtin operations).apply .builtin o = .ok m →
        (l.operateAll .builtin operations).operate .builtin o = m ∧
          Holdings.AgreeOn considered m.holdings
            (o.effect .builtin (l.operateAll .builtin operations).holdings)) ∧
      ∀ e, (l.operateAll .builtin operations).apply .builtin o = .error e →
        (l.operateAll .builtin operations).operate .builtin o =
          l.operateAll .builtin operations := by
  constructor
  · intro m hm
    exact ⟨by rw [operate, hm],
      agreeOn_apply_of_builtin hdeployed operations hdistinct hhigh hwritten hm⟩
  · intro e he
    rw [operate, he]

/-- **A run comes to the effects of the operations accepted**, in order. -/
theorem operateAll_refines (hwritten : ∀ o ∈ operations, ∀ a ∈ o.written, a ∈ considered) :
    Holdings.AgreeOn considered (l.operateAll .builtin operations).holdings
      ((l.accepted .builtin operations).foldl (fun h o => o.effect .builtin h) l.holdings) := by
  -- On the operations, the last one first: each is applied where the ones before have led.
  induction operations using List.reverseRecOn with
  | nil => exact .refl _
  | append_singleton rest o ih =>
    have hrest := ih fun o ho => hwritten o (List.mem_append_left _ ho)
    have ho : ∀ a ∈ o.written, a ∈ considered :=
      hwritten o (List.mem_append_right _ (List.mem_singleton_self o))
    rw [operateAll_append, accepted_concat, operateAll, List.foldl_cons, List.foldl_nil, operate]
    cases happly : (l.operateAll .builtin rest).apply .builtin o with
    | ok m =>
      rw [List.foldl_append]
      exact (agreeOn_apply_of_builtin hdeployed rest hdistinct hhigh ho happly).trans
        (Operation.agreeOn_effect hrest .builtin ho)
    | error e =>
      rw [List.append_nil]
      exact hrest

end Builtin

/-- A mint and the upgrade to the second version. -/
def mintAndUpgrade : List Operation := [.mint 0xd0 0xd0 5, .upgrade "TokenUpgradeableV2"]

set_option maxRecDepth 100000 in
/-- After a mint and an upgrade a transfer within the balance moves it, and one beyond it moves
nothing. -/
theorem operate_refines_holdings_mintAndUpgrade :
    ∃ l, firstVersion.deploy .builtin = .ok l ∧
      (∃ m, (l.operateAll .builtin mintAndUpgrade).apply .builtin (.transfer 0xd0 0xb0 2) = .ok m ∧
        m.holdings.balance 0xd0 = 3 ∧ m.holdings.balance 0xb0 = 2) ∧
      (∃ e, (l.operateAll .builtin mintAndUpgrade).apply .builtin (.transfer 0xd0 0xb0 6) =
        .error e) ∧
      (l.operateAll .builtin mintAndUpgrade).operate .builtin (.transfer 0xd0 0xb0 6) =
        l.operateAll .builtin mintAndUpgrade := by
  have htest : passes (firstVersion.deploy .builtin) (fun l =>
      decide (l.bindings.balances = 1 ∧ l.bindings.roles = 3 ∧
        (l.operateAll .builtin mintAndUpgrade).balanceOf 0xd0 = 5 ∧
        (l.operateAll .builtin mintAndUpgrade).balanceOf 0xb0 = 0) &&
      passes ((l.operateAll .builtin mintAndUpgrade).apply .builtin (.transfer 0xd0 0xb0 2))
        (fun _ => true) &&
      !passes ((l.operateAll .builtin mintAndUpgrade).apply .builtin (.transfer 0xd0 0xb0 6))
        fun _ => true) = true := by
    decide +kernel
  obtain ⟨l, hdeployed, htest⟩ := exists_of_passes htest
  simp only [Bool.and_eq_true, decide_eq_true_eq, Bool.not_eq_true'] at htest
  obtain ⟨⟨⟨hbalances, hroles, hfrom, hto⟩, haccepted⟩, hrefused⟩ := htest
  obtain ⟨hdistinct, hhigh⟩ := Bindings.cells_of_token hbalances hroles
  have hwritten : ∀ amount, ∀ a ∈ (Operation.transfer 0xd0 0xb0 amount).written,
      a ∈ {a | a ∈ [0xd0, 0xb0]} := fun _ _ ha => ha
  refine ⟨l, hdeployed, ?_, ?_⟩
  · obtain ⟨m, hm, -⟩ := exists_of_passes haccepted
    have hagree := ((operate_refines_holdings hdeployed mintAndUpgrade hdistinct hhigh
      (hwritten 2)).1 m hm).2
    have hfrom' : (l.operateAll .builtin mintAndUpgrade).holdings.balance 0xd0 = 5 := by
      rw [balance_holdings, hfrom]
      decide
    have hto' : (l.operateAll .builtin mintAndUpgrade).holdings.balance 0xb0 = 0 := by
      rw [balance_holdings, hto]
      decide
    refine ⟨m, hm, ?_, ?_⟩
    · rw [hagree.balance 0xd0 (by decide), Operation.effect, if_neg (by decide)]
      simp only [Holdings.setBalance, Function.update_apply, hfrom', hto']
      decide
    · rw [hagree.balance 0xb0 (by decide), Operation.effect, if_neg (by decide)]
      simp only [Holdings.setBalance, Function.update_apply, hfrom', hto']
      decide
  · cases hrefusal :
      (l.operateAll .builtin mintAndUpgrade).apply .builtin (.transfer 0xd0 0xb0 6) with
    | ok m =>
      rw [hrefusal] at hrefused
      cases hrefused
    | error e =>
      exact ⟨⟨e, rfl⟩, (operate_refines_holdings hdeployed mintAndUpgrade hdistinct hhigh
        (hwritten 6)).2 e hrefusal⟩

end Ledger

end SlotLedger
