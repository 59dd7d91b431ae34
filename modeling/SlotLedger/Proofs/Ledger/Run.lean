import SlotLedger.Operation
import SlotLedger.Proofs.Ledger.Commit
import SlotLedger.Proofs.Outcome

/-!
# Runs

What a ledger goes through after its deployment is a list of calls.  A call is accepted, and gives
the next ledger, or refused, and leaves the ledger as it is; an accepted call is a commit of what
the active logic staged or an upgrade to any schema and any logic.  Logic is never trusted: it is
any function from an open transaction to edits.

## Main definitions

* `Call`, `Ledger.call`: one call and its answer
* `Ledger.after`, `Ledger.run`: the ledger after a call and after a list of calls
* `Ledger.IsDeployed`: a fresh ledger, upgradeable or not
* `Ledger.setUpEdits`, `Ledger.runEdits`: the edits that a deployment and a run commit
* `Ledger.IsBound`: the bindings are those of the active logic in a validated schema

## Main results

* `Ledger.execute_eq_ok_iff`, `Ledger.upgrade_eq_ok_iff`, `Ledger.found_eq_ok_iff`: what acceptance
  means
* `Ledger.after_cases`: what a call does
* `Ledger.run_induction`: what calls keep, runs keep
* `Ledger.isBound_run`: ledgers stay bound
* `Ledger.run_induction_of_isBound`: what calls keep of bound ledgers, runs keep
-/

namespace SlotLedger

/-- One call on a ledger. -/
inductive Call where
  | mint (caller target : Account) (amount : Amount)
  | auditReport (caller : Account) (amount : Amount)
  | transfer (caller receiver : Account) (amount : Amount)
  | grantRole (caller : Account) (role : Role) (account : Account)
  | revokeRole (caller : Account) (role : Role) (account : Account)
  | renounceRole (caller : Account) (role : Role)
  | upgrade (schema : Schema) (logic : Logic)

/-- What a call has the active logic stage; an upgrade stages nothing. -/
def Call.stage? : Call → Option (Logic → Stage Unit)
  | .mint caller target amount => some fun logic => logic.mint caller target amount
  | .auditReport caller amount => some fun logic => logic.auditReport caller amount
  | .transfer caller receiver amount => some fun logic => logic.transfer caller receiver amount
  | .grantRole caller role account => some fun logic => logic.grantRole caller role account
  | .revokeRole caller role account => some fun logic => logic.revokeRole caller role account
  | .renounceRole caller role => some fun logic => logic.renounceRole caller role
  | .upgrade _ _ => none

namespace Ledger

/-- The answer to a call: the next ledger, or why there is none. -/
def call (l : Ledger) : Call → Except OperationError Ledger
  | .mint caller target amount => (l.mint caller target amount).mapError .ledger
  | .auditReport caller amount => (l.auditReport caller amount).mapError .ledger
  | .transfer caller receiver amount => (l.transfer caller receiver amount).mapError .ledger
  | .grantRole caller role account => (l.grantRole caller role account).mapError .ledger
  | .revokeRole caller role account => (l.revokeRole caller role account).mapError .ledger
  | .renounceRole caller role => (l.renounceRole caller role).mapError .ledger
  | .upgrade schema logic => ((l.upgrade schema logic).map Prod.fst).mapError .upgrade

/-- The ledger after a call; a refused call leaves it as it is. -/
def after (l : Ledger) (c : Call) : Ledger :=
  match l.call c with
  | .ok m => m
  | .error _ => l

/-- The ledger after calls in order. -/
def run (l : Ledger) (calls : List Call) : Ledger := calls.foldl after l

/-- `l` is fresh from a deployment, with or without upgrade support. -/
def IsDeployed (schema : Schema) (logic : Logic) (deployer : Account) (l : Ledger) : Prop :=
  deploy schema logic deployer = .ok l ∨ deployFixed schema logic deployer = .ok l

/-- The word at a cell. -/
def cell (l : Ledger) (c : Cell) : Word := l.storage.load (l.bindings.cellSlot c)

theorem balanceOf_eq_cell (l : Ledger) (a : Account) : l.balanceOf a = l.cell (.balance a) := rfl

theorem hasRole_eq_cell (l : Ledger) (role : Role) (a : Account) :
    l.hasRole role a = (l.cell (.member role a) != 0) := rfl

/-- An open transaction over the ledger's storage. -/
def transaction (l : Ledger) : Transaction := .start l.storage l.bindings

/-! ## What is committed -/

/-- The edits of a fresh ledger's initializer. -/
def setUpEdits (l : Ledger) (deployer : Account) : List Edit :=
  (l.logic.setUp deployer (.start .empty l.bindings)).edits

/-- The edits that a call commits; none if it is refused. -/
def callEdits (l : Ledger) (c : Call) : List Edit :=
  match c.stage?, l.call c with
  | some operation, .ok _ => (operation l.logic l.transaction).edits
  | _, _ => []

/-- The edits that calls in order commit. -/
def runEdits (l : Ledger) : List Call → List Edit
  | [] => []
  | c :: rest => l.callEdits c ++ (l.after c).runEdits rest

/-! ## Acceptance -/

/-- An operation is accepted exactly if the logic does not refuse and its edits pass the gate. -/
theorem execute_eq_ok_iff {l m : Ledger} {operation : Logic → Stage Unit} :
    l.execute operation = .ok m ↔
      (operation l.logic l.transaction).result = .ok () ∧
        Commits l.bindings l.storage (operation l.logic l.transaction).edits m.storage ∧
        m = { l with storage := m.storage } := by
  have hexecute : l.execute operation =
      (operation l.logic l.transaction).result >>= fun _ =>
        (l.transaction.applyAll (operation l.logic l.transaction).edits).validate
            l.bindings.totalAudited.isSome >>= fun _ =>
          .ok { l with
            storage := l.storage.apply
              (l.transaction.applyAll (operation l.logic l.transaction).edits).writes } := rfl
  -- The storage of the result is that of the commit, whichever of them names it.
  rw [hexecute, seq_eq_ok_iff, seq_eq_ok_iff]
  refine and_congr_right fun _ => ?_
  constructor
  · rintro ⟨haccepted, hm⟩
    cases hm
    exact ⟨⟨haccepted, rfl⟩, rfl⟩
  · rintro ⟨⟨haccepted, hstored⟩, hm⟩
    refine ⟨haccepted, ?_⟩
    rw [hm, hstored]
    rfl

/-- The record of an upgrade to a schema. -/
def upgradeRecord (l : Ledger) (schema : Schema) : UpgradeRecord where
  fromImplementation := l.schema.name
  fromVersion := l.schema.version
  toImplementation := schema.name
  toVersion := schema.version
  appendedFields := (l.schema.checkUpgrade schema).appendedFields

/-- The ledger after an upgrade. -/
def upgraded (l : Ledger) (schema : Schema) (logic : Logic) (b : Bindings) : Ledger where
  schema := schema
  logic := logic
  bindings := b
  storage := clearAppended l.storage (l.schema.checkUpgrade schema).appendedFields
  history := l.history ++ [l.upgradeRecord schema]
  upgradeable := l.upgradeable

theorem requireUpgradeSafe_eq_ok_iff {logic : Logic} :
    requireUpgradeSafe logic = .ok () ↔ logic.initialization = .initializer := by
  unfold requireUpgradeSafe
  cases logic.initialization <;> simp

/-- An upgrade is four checks one after another, and the bindings. -/
theorem upgrade_eq_bind (l : Ledger) (schema : Schema) (logic : Logic) :
    l.upgrade schema logic =
      (if !l.upgradeable then throw .notUpgradeable else pure ()) >>= fun _ =>
        requireUpgradeSafe logic >>= fun _ =>
          (if !(l.schema.checkUpgrade schema).isAllowed then
              throw (.incompatibleLayout (l.schema.checkUpgrade schema)) else pure ()) >>= fun _ =>
            schema.validate.mapError .schema >>= fun _ =>
              (logic.bind schema).mapError .schema >>= fun b =>
                .ok (l.upgraded schema logic b, l.upgradeRecord schema) := by
  unfold upgrade
  dsimp only
  -- Each guard stands for itself in the chain, so its two outcomes agree by computation.
  generalize (!l.upgradeable) = fixed
  generalize (!(l.schema.checkUpgrade schema).isAllowed) = rejected
  cases fixed <;> cases rejected <;> rfl

/-- An upgrade is accepted exactly if the ledger and the logic support it, the layout is allowed
and valid, and the logic binds to it. -/
theorem upgrade_eq_ok_iff {l m : Ledger} {schema : Schema} {logic : Logic} {r : UpgradeRecord} :
    l.upgrade schema logic = .ok (m, r) ↔
      (l.upgradeable = true ∧ logic.initialization = .initializer ∧
        (l.schema.checkUpgrade schema).isAllowed = true ∧ schema.validate = .ok ()) ∧
      ∃ b, logic.bind schema = .ok b ∧ m = l.upgraded schema logic b ∧
        r = l.upgradeRecord schema := by
  rw [upgrade_eq_bind, seq_eq_ok_iff, seq_eq_ok_iff, seq_eq_ok_iff, seq_eq_ok_iff, bind_eq_ok_iff]
  simp only [mapError_eq_ok_iff, requireUpgradeSafe_eq_ok_iff, Except.ok.injEq, Prod.mk.injEq,
    eq_comm (a := l.upgraded _ _ _), eq_comm (a := l.upgradeRecord _)]
  cases l.upgradeable <;> cases (l.schema.checkUpgrade schema).isAllowed <;>
    simp [throw, throwThe, MonadExceptOf.throw, pure, Except.pure, and_assoc]

/-- A deployment is accepted exactly if the schema is valid, the logic binds to it, and the edits of
its initializer over empty storage pass the gate. -/
theorem found_eq_ok_iff {l : Ledger} {schema : Schema} {logic : Logic} {deployer : Account}
    {upgradeable : Bool} :
    found schema logic deployer upgradeable = .ok l ↔
      schema.validate = .ok () ∧ ∃ b, logic.bind schema = .ok b ∧
        (logic.setUp deployer (.start .empty b)).result = .ok () ∧
        Commits b .empty (logic.setUp deployer (.start .empty b)).edits l.storage ∧
        l = ⟨schema, logic, b, l.storage, [], upgradeable⟩ := by
  have hfound : found schema logic deployer upgradeable =
      schema.validate.mapError .schema >>= fun _ =>
        (logic.bind schema).mapError .schema >>= fun b =>
          (logic.setUp deployer (.start .empty b)).result.mapError .initialization >>= fun _ =>
            (((Transaction.start .empty b).applyAll
                (logic.setUp deployer (.start .empty b)).edits).validate
                  b.totalAudited.isSome).mapError .initialization >>= fun _ =>
              .ok ⟨schema, logic, b,
                ((Transaction.start .empty b).applyAll
                  (logic.setUp deployer (.start .empty b)).edits).base.apply
                  ((Transaction.start .empty b).applyAll
                    (logic.setUp deployer (.start .empty b)).edits).writes, [], upgradeable⟩ := rfl
  -- A fresh transaction's base is empty storage, edits or not.
  rw [hfound, seq_eq_ok_iff, bind_eq_ok_iff]
  simp only [seq_eq_ok_iff, mapError_eq_ok_iff, Except.ok.injEq, Transaction.base_applyAll]
  refine and_congr_right fun _ => exists_congr fun b => and_congr_right fun _ =>
    and_congr_right fun _ => ?_
  constructor
  · rintro ⟨haccepted, hl⟩
    cases hl
    exact ⟨⟨haccepted, rfl⟩, rfl⟩
  · rintro ⟨⟨haccepted, hstored⟩, hl⟩
    refine ⟨haccepted, ?_⟩
    rw [hl, hstored]
    rfl

theorem found_of_isDeployed {schema : Schema} {logic : Logic} {deployer : Account} {l : Ledger}
    (h : IsDeployed schema logic deployer l) :
    ∃ upgradeable, found schema logic deployer upgradeable = .ok l := by
  rcases h with h | h
  · rw [deploy, seq_eq_ok_iff] at h
    exact ⟨true, h.2⟩
  · exact ⟨false, h⟩

/-- What a deployment leaves is the commit of its initializer's edits over empty storage. -/
theorem IsDeployed.commits {schema : Schema} {logic : Logic} {deployer : Account} {l : Ledger}
    (h : IsDeployed schema logic deployer l) :
    Commits l.bindings .empty (l.setUpEdits deployer) l.storage := by
  obtain ⟨upgradeable, hfound⟩ := found_of_isDeployed h
  obtain ⟨-, b, -, -, hcommits, hl⟩ := found_eq_ok_iff.mp hfound
  rw [hl] at hcommits ⊢
  exact hcommits

/-! ## Calls -/

/-- An accepted call is a commit of what the active logic staged, or an upgrade. -/
theorem call_cases {l m : Ledger} {c : Call} (h : l.call c = .ok m) :
    (∃ operation, c.stage? = some operation ∧ l.execute operation = .ok m) ∨
      ∃ schema logic r, c = .upgrade schema logic ∧ l.upgrade schema logic = .ok (m, r) := by
  cases c with
  | upgrade schema logic =>
    obtain ⟨⟨m', r⟩, hupgrade, rfl⟩ := map_eq_ok_iff.mp (mapError_eq_ok_iff.mp h)
    exact .inr ⟨schema, logic, r, rfl, hupgrade⟩
  | _ => exact .inl ⟨_, rfl, mapError_eq_ok_iff.mp h⟩

theorem after_of_call {l m : Ledger} {c : Call} (h : l.call c = .ok m) : l.after c = m := by
  rw [after, h]

/-- **What a call does**: it commits the edits that the active logic staged, or puts a new layout in
place, or leaves the ledger as it is. -/
theorem after_cases (l : Ledger) (c : Call) :
    (Commits l.bindings l.storage (l.callEdits c) (l.after c).storage ∧
        l.after c = { l with storage := (l.after c).storage }) ∨
      (∃ schema logic r, c = .upgrade schema logic ∧
        l.upgrade schema logic = .ok (l.after c, r)) ∨
      l.after c = l ∧ l.callEdits c = [] := by
  cases h : l.call c with
  | ok m =>
    rw [after_of_call h]
    rcases call_cases h with ⟨operation, hstage, hexecute⟩ | ⟨schema, logic, r, rfl, hupgrade⟩
    · obtain ⟨-, hcommits, hm⟩ := execute_eq_ok_iff.mp hexecute
      have hedits : l.callEdits c = (operation l.logic l.transaction).edits := by
        rw [callEdits, hstage, h]
      rw [hedits]
      exact .inl ⟨hcommits, hm⟩
    · exact .inr (.inl ⟨schema, logic, r, rfl, hupgrade⟩)
  | error e =>
    have hedits : l.callEdits c = [] := by
      unfold callEdits
      rw [h]
      cases c.stage? <;> rfl
    exact .inr (.inr ⟨by rw [after, h], hedits⟩)

/-- After a commit the new words are read through the bindings as they were. -/
theorem view_after {l : Ledger} {c : Call}
    (hm : l.after c = { l with storage := (l.after c).storage }) :
    (l.after c).view = ⟨l.bindings, (l.after c).storage.load⟩ := by
  rw [hm]
  rfl

theorem run_cons (l : Ledger) (c : Call) (calls : List Call) :
    l.run (c :: calls) = (l.after c).run calls := rfl

/-- **What calls keep, runs keep.** -/
theorem run_induction {P : Ledger → Prop} (hstep : ∀ (l : Ledger) (c : Call), P l → P (l.after c))
    {l : Ledger} (h : P l) (calls : List Call) : P (l.run calls) := by
  induction calls generalizing l with
  | nil => exact h
  | cons c calls ih => exact ih (hstep l c h)

/-! ## Bound ledgers -/

/-- The active schema is valid and the bindings are those of the active logic in it. -/
structure IsBound (l : Ledger) : Prop where
  valid : l.schema.validate = .ok ()
  bound : l.logic.bind l.schema = .ok l.bindings

theorem IsDeployed.isBound {schema : Schema} {logic : Logic} {deployer : Account} {l : Ledger}
    (h : IsDeployed schema logic deployer l) : l.IsBound := by
  obtain ⟨upgradeable, hfound⟩ := found_of_isDeployed h
  obtain ⟨hvalid, b, hbind, -, -, hl⟩ := found_eq_ok_iff.mp hfound
  rw [hl]
  exact ⟨hvalid, hbind⟩

theorem isBound_after {l : Ledger} (hl : l.IsBound) (c : Call) : (l.after c).IsBound := by
  -- A commit changes neither the schema nor the logic, and an upgrade checks both anew.
  rcases l.after_cases c with ⟨-, hm⟩ | ⟨schema, logic, r, -, hupgrade⟩ | ⟨hm, -⟩
  · rw [hm]
    exact ⟨hl.valid, hl.bound⟩
  · obtain ⟨⟨-, -, -, hvalid⟩, b, hbind, hm, -⟩ := upgrade_eq_ok_iff.mp hupgrade
    rw [hm]
    exact ⟨hvalid, hbind⟩
  · rwa [hm]

/-- Ledgers stay bound. -/
theorem isBound_run {l : Ledger} (hl : l.IsBound) (calls : List Call) : (l.run calls).IsBound :=
  run_induction (P := IsBound) (fun _ c hl => isBound_after hl c) hl calls

/-- **What calls keep of bound ledgers, runs keep.** -/
theorem run_induction_of_isBound {P : Ledger → Prop}
    (hstep : ∀ (l : Ledger) (c : Call), l.IsBound → P l → P (l.after c)) {l : Ledger}
    (hl : l.IsBound) (h : P l) (calls : List Call) : P (l.run calls) := by
  refine (run_induction (P := fun m => m.IsBound ∧ P m) ?_ ⟨hl, h⟩ calls).2
  rintro m c ⟨hm, h⟩
  exact ⟨isBound_after hm c, hstep m c hm h⟩

end Ledger

end SlotLedger
