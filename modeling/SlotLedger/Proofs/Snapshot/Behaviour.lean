import SlotLedger.Proofs.Snapshot.RoundTrip

/-!
# How a restored ledger goes on

An image names the implementation of a ledger by its schema.  A registry may have found it under
another name and keep other logic of the same schema under this one; then the restored ledger has
that other logic.  No check of the snapshot sees it, since the fingerprint leaves the logic out.
The restored ledger goes on as the original would if the active implementation was found under the
name of its schema.

## Main definitions

* `Ledger.answers`: the answers to operations in order
* `Snapshot.aliasRegistry`: a registry that finds a layout under two names

## Main results

* `Ledger.answers_eq_iff`: when another logic behind a ledger goes unnoticed
* `Snapshot.behaves_of_restore_capture`: when a restored ledger goes on as the original
-/

namespace SlotLedger

namespace Ledger

/-- The answers to operations in order: the next ledger, or why there is none. -/
def answers (l : Ledger) (registry : Registry) :
    List Operation → List (Except OperationError Ledger)
  | [] => []
  | o :: rest => l.apply registry o :: (l.operate registry o).answers registry rest

variable {registry : Registry} {l : Ledger}

/-- An upgrade does not ask the logic that it replaces. -/
theorem apply_upgrade_of_logic (l : Ledger) (logic : Logic) (registry : Registry) (name : String) :
    { l with logic }.apply registry (.upgrade name) = l.apply registry (.upgrade name) := rfl

/-- An accepted operation that upgrades to nothing leaves the ledger its logic. -/
theorem logic_eq_of_apply {o : Operation} (ho : o.upgradeTo? = none) {m : Ledger}
    (h : l.apply registry o = .ok m) : m.logic = l.logic := by
  rcases apply_cases h with ⟨-, hm⟩ | ⟨name, i, r, rfl, -, -⟩
  · rw [hm]
  · cases ho

/-- While a ledger accepts nothing but upgrades, its answers do not show which logic it has, as long
as the reasons are the same. -/
theorem answers_eq_of_refused {logic : Logic}
    (hrefused : ∀ o : Operation, o.upgradeTo? = none →
      ∃ e, l.apply registry o = .error e ∧ { l with logic }.apply registry o = .error e)
    (operations : List Operation) :
    { l with logic }.answers registry operations = l.answers registry operations := by
  induction operations with
  | nil => rfl
  | cons o rest ih =>
    rw [answers, answers, operate, operate]
    cases ho : o.upgradeTo? with
    | none =>
      obtain ⟨e, he, he'⟩ := hrefused o ho
      rw [he, he']
      exact congrArg (_ :: ·) ih
    | some name =>
      cases o with
      | upgrade implementation =>
        rw [apply_upgrade_of_logic]
        cases l.apply registry (.upgrade implementation) with
        | ok m => rfl
        | error e => exact congrArg (_ :: ·) ih
      | _ => cases ho

/-- Ledgers that differ in their logic alone give the same answers to all operations exactly if they
do not differ at all, or if both refuse everything but upgrades, and for the same reasons. -/
theorem answers_eq_iff {logic : Logic} :
    (∀ operations, { l with logic }.answers registry operations = l.answers registry operations) ↔
      logic = l.logic ∨ ∀ o : Operation, o.upgradeTo? = none →
        ∃ e, l.apply registry o = .error e ∧ { l with logic }.apply registry o = .error e := by
  constructor
  · intro hsame
    by_cases hlogic : logic = l.logic
    · exact .inl hlogic
    refine .inr fun o ho => ?_
    have hanswer : { l with logic }.apply registry o = l.apply registry o :=
      List.head_eq_of_cons_eq (hsame [o])
    cases happly : l.apply registry o with
    | error e => exact ⟨e, rfl, hanswer.trans happly⟩
    | ok m =>
      have hkept := logic_eq_of_apply ho happly
      have hkept' := logic_eq_of_apply ho (hanswer.trans happly)
      exact absurd (hkept'.symm.trans hkept) hlogic
  · rintro (hlogic | hrefused) operations
    · rw [hlogic]
    · exact answers_eq_of_refused hrefused operations

end Ledger

namespace Snapshot

/-- **When a restored ledger goes on as the original.**  The original has the logic that the
registry keeps under the name by which the ledger was deployed or last upgraded, and the restored
one that under the name of the schema; they are the same in all else.  So they give the same answers
to all further operations if these names agree.  If they do not, the answers are the same exactly if
the logic is, or if both ledgers refuse everything but upgrades alike; upgrades are answered alike
in any case. -/
theorem behaves_of_restore_capture {registry : Registry} {d : Deployment} {fresh l l' : Ledger}
    (hdeploy : d.deploy registry = .ok fresh) {operations : List Operation}
    (hl : fresh.operateAll registry operations = l) {n : UInt64}
    (h : (capture n l).restore registry = .ok l') :
    (fresh.activeName registry d.implementation operations = l.schema.name →
        ∀ further, l'.answers registry further = l.answers registry further) ∧
      ∃ active named,
        registry.get? (fresh.activeName registry d.implementation operations) = some active ∧
          registry.get? l.schema.name = some named ∧
          (l.schema = active.schema ∧ l.logic = active.logic) ∧
          (named.schema = active.schema ∧ l' = { l with logic := named.logic }) ∧
          ((∀ further, l'.answers registry further = l.answers registry further) ↔
            named.logic = active.logic ∨ ∀ o : Operation, o.upgradeTo? = none →
              ∃ e, l.apply registry o = .error e ∧ l'.apply registry o = .error e) ∧
          ∀ name, l'.apply registry (.upgrade name) = l.apply registry (.upgrade name) := by
  subst hl
  obtain ⟨active, hactive, hschema, hlogic⟩ :=
    Ledger.isKnownAs_operateAll (Ledger.isKnownAs_of_deploy hdeploy) operations
  have hbound := Ledger.isBound_operateAll (Ledger.isBound_of_deploy hdeploy) registry operations
  obtain ⟨named, hnamed, hstored, hl'⟩ := of_restore_capture hbound h
  refine ⟨fun hname further => ?_, active, named, hactive, hnamed, ⟨hschema, hlogic⟩,
    ⟨hstored.trans hschema, hl'⟩, ?_, fun name => ?_⟩
  · -- One name has one implementation in the registry.
    rw [hname] at hactive
    obtain rfl : named = active := Option.some.inj (hnamed.symm.trans hactive)
    rw [hl', ← hlogic]
  · rw [hl', ← hlogic]
    exact Ledger.answers_eq_iff
  · rw [hl', Ledger.apply_upgrade_of_logic]

/-- Logic with the cap that does not take reports. -/
def reportless : Logic := { Logic.standard "Other" 7 with enforcesAuditCap := true }

/-- The second version of the token under another name, and other logic under its own. -/
def aliasRegistry : Registry :=
  .ofList [⟨"Alias", .tokenV2, .tokenV2⟩, ⟨"TokenUpgradeableV2", .tokenV2, reportless⟩]

set_option maxRecDepth 100000 in
/-- The original takes a report, and what was restored of it does not. -/
theorem behaves_of_restore_capture_alias :
    ∃ fresh l l', Deployment.deploy ⟨"Alias", 0xd0, true⟩ aliasRegistry = .ok fresh ∧
      fresh.operateAll aliasRegistry [.grantRole 0xd0 .audit 0xd0] = l ∧
      (capture 2 l).restore aliasRegistry = .ok l' ∧
      (∃ m, l.apply aliasRegistry (.auditReport 0xd0 8) = .ok m ∧ m.totalAudited = some 8) ∧
      l'.apply aliasRegistry (.auditReport 0xd0 8) =
        .error (.ledger (.unsupportedOperation "audit_report" 7)) ∧
      ¬ ∀ further, l'.answers aliasRegistry further = l.answers aliasRegistry further := by
  have htest : passes (Deployment.deploy ⟨"Alias", 0xd0, true⟩ aliasRegistry) (fun fresh =>
      let l := fresh.operateAll aliasRegistry [.grantRole 0xd0 .audit 0xd0]
      decide ((l.schema = .tokenV2 ∧ l.logic.name = "TokenUpgradeableV2") ∧
        l.view.isInitialized = true ∧ (LedgerImage.ofLedger l).IsShallow) &&
        passes (l.apply aliasRegistry (.auditReport 0xd0 8)) fun m =>
          decide (m.totalAudited = some 8)) = true := by
    decide +kernel
  have hbinds : passes (reportless.bind .tokenV2) (fun _ => true) = true := by decide
  obtain ⟨fresh, hdeploy, htest⟩ := exists_of_passes htest
  obtain ⟨hfacts, hreport⟩ := (Bool.and_eq_true _ _).mp htest
  obtain ⟨⟨hschema, hname⟩, hinitialized, hshallow⟩ := of_decide_eq_true hfacts
  obtain ⟨m, hm, haudited⟩ := exists_of_passes hreport
  obtain ⟨b, hb, -⟩ := exists_of_passes hbinds
  have hbound := Ledger.isBound_operateAll (Ledger.isBound_of_deploy hdeploy) aliasRegistry
    [.grantRole 0xd0 .audit 0xd0]
  generalize hl : fresh.operateAll aliasRegistry [.grantRole 0xd0 .audit 0xd0] = l at *
  -- The other logic binds to the schema too, and so what was captured is restored.
  have hrestorable : { l with logic := reportless }.IsRestorable := by
    refine ⟨⟨hbound.valid, ?_⟩, fun _ => rfl, hinitialized⟩
    rw [← hschema] at hb
    rw [hb, Logic.eq_of_bind hbound.bound hb]
  have hnamed : aliasRegistry.get? l.implementation =
      some ⟨"TokenUpgradeableV2", .tokenV2, reportless⟩ := by
    rw [Ledger.implementation, hschema]
    rfl
  have hrestore := restore_capture_of_get? hnamed hschema.symm hrestorable hshallow 2
  obtain ⟨-, active, named, -, hnamed', ⟨-, hlogic⟩, -, hiff, -⟩ :=
    behaves_of_restore_capture hdeploy hl hrestore
  refine ⟨fresh, l, _, hdeploy, hl, hrestore, ⟨m, hm, of_decide_eq_true haudited⟩, rfl,
    fun hsame => ?_⟩
  rcases hiff.mp hsame with hother | hrefused
  · obtain rfl := Option.some.inj (hnamed.symm.trans hnamed')
    rw [hlogic, ← hother] at hname
    exact absurd hname (by decide)
  · obtain ⟨e, he, -⟩ := hrefused (.auditReport 0xd0 8) rfl
    rw [hm] at he
    cases he

end Snapshot

end SlotLedger
