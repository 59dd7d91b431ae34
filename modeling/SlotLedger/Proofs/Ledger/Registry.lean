import Mathlib.Data.List.Induction
import SlotLedger.Proofs.Ledger.Data
import SlotLedger.Proofs.Ledger.Run
import SlotLedger.Record

/-!
# Runs within a registry

Operations name the implementation of an upgrade, and a registry finds it.  What they do to a
ledger is a run of the calls that they come to.  Every implementation of the token mints and
transfers by the standard methods and has its counters in slots of their own; deployments and
upgrades within the builtin registry keep to these.

## Main definitions

* `Operation.call?`, `Ledger.operate`, `Ledger.operateAll`: operations as calls
* `Ledger.accepted`: the operations that are not refused
* `Ledger.IsKnown`, `Ledger.IsKnownAs`: schema and logic are those of an implementation in the
  registry, or of the one with the given name
* `Ledger.activeName`: the name of the last implementation that was put in place
* `Logic.IsStandardOn`, `Ledger.IsStandard`: standard mint and transfer, counters apart

## Main results

* `Ledger.operateAll_eq_run`: operations are runs
* `Registry.mem_of_get?_ofList`: a registry finds what it was made of
* `Ledger.apply_cases`: what an accepted operation does
* `Ledger.isKnown_operateAll`, `Ledger.isKnownAs_operateAll`: ledgers stay within their registry
* `Ledger.isStandard_operateAll`: ledgers of the builtin registry are standard
-/

namespace SlotLedger

/-! ## Look-up -/

namespace Registry

theorem get?_register (r : Registry) (i : Implementation) (name : String) :
    (r.register i).get? name = if name = i.name then some i else r.get? name := by
  rw [register, get?, Table.get?_insert]
  simp only [Std.LawfulEqOrd.compare_eq_iff_eq]
  rfl

/-- A registry finds what it was made of, under its own name. -/
theorem mem_of_get?_ofList {implementations : List Implementation} {name : String}
    {i : Implementation} (h : (ofList implementations).get? name = some i) :
    i ∈ implementations ∧ i.name = name := by
  -- What was registered last is found first under its name.
  induction implementations using List.reverseRecOn with
  | nil => cases h
  | append_singleton rest last ih =>
    have hstep : ofList (rest ++ [last]) = (ofList rest).register last := by
      rw [ofList, List.foldl_append]
      rfl
    rw [hstep, get?_register] at h
    split at h
    · rename_i hname
      cases h
      exact ⟨List.mem_append_right _ (List.mem_singleton_self _), hname.symm⟩
    · obtain ⟨hmem, hname⟩ := ih h
      exact ⟨List.mem_append_left _ hmem, hname⟩

end Registry

/-! ## Operations as calls -/

/-- The call that an operation comes to; none for an implementation that is not known. -/
def Operation.call? (registry : Registry) : Operation → Option Call
  | .mint caller target amount => some (.mint caller target amount)
  | .auditReport caller amount => some (.auditReport caller amount)
  | .transfer caller receiver amount => some (.transfer caller receiver amount)
  | .grantRole caller role account => some (.grantRole caller role account)
  | .revokeRole caller role account => some (.revokeRole caller role account)
  | .renounceRole caller role => some (.renounceRole caller role)
  | .upgrade implementation =>
    (registry.get? implementation).map fun i => .upgrade i.schema i.logic

/-- The implementation that an operation asks to put in place, by name. -/
def Operation.upgradeTo? : Operation → Option String
  | .upgrade implementation => some implementation
  | _ => none

namespace Ledger

/-- The ledger after an operation; a refused operation leaves it as it is. -/
def operate (registry : Registry) (l : Ledger) (o : Operation) : Ledger :=
  match l.apply registry o with
  | .ok m => m
  | .error _ => l

/-- The ledger after operations in order. -/
def operateAll (l : Ledger) (registry : Registry) (operations : List Operation) : Ledger :=
  operations.foldl (operate registry) l

theorem apply_eq (l : Ledger) (registry : Registry) (o : Operation) :
    (∃ c, o.call? registry = some c ∧ l.apply registry o = l.call c) ∨
      o.call? registry = none ∧ ∃ e, l.apply registry o = .error e := by
  cases o with
  | upgrade implementation =>
    rw [Operation.call?, apply]
    cases registry.get? implementation with
    | none => exact .inr ⟨rfl, _, rfl⟩
    | some i => exact .inl ⟨_, rfl, rfl⟩
  | _ => exact .inl ⟨_, rfl, rfl⟩

theorem operate_eq_after {l : Ledger} {registry : Registry} {o : Operation} {c : Call}
    (hc : o.call? registry = some c) : l.operate registry o = l.after c := by
  rcases l.apply_eq registry o with ⟨c', hc', happly⟩ | ⟨hnone, -⟩
  · obtain rfl : c' = c := Option.some.inj (hc'.symm.trans hc)
    cases hcall : l.call c' <;> rw [operate, happly, after, hcall]
  · rw [hc] at hnone
    cases hnone

theorem operate_of_call?_eq_none {l : Ledger} {registry : Registry} {o : Operation}
    (hnone : o.call? registry = none) : l.operate registry o = l := by
  rcases l.apply_eq registry o with ⟨c, hc, -⟩ | ⟨-, e, happly⟩
  · rw [hc] at hnone
    cases hnone
  · rw [operate, happly]

/-- **Operations are runs.** -/
theorem operateAll_eq_run (l : Ledger) (registry : Registry) (operations : List Operation) :
    l.operateAll registry operations = l.run (operations.filterMap (·.call? registry)) := by
  induction operations generalizing l with
  | nil => rfl
  | cons o rest ih =>
    rw [operateAll, List.foldl_cons, List.filterMap_cons]
    -- An operation that comes to no call changes nothing.
    cases hc : o.call? registry with
    | none =>
      rw [operate_of_call?_eq_none hc]
      exact ih l
    | some c =>
      rw [operate_eq_after hc]
      exact ih (l.after c)

theorem operateAll_append (l : Ledger) (registry : Registry) (first later : List Operation) :
    l.operateAll registry (first ++ later) =
      (l.operateAll registry first).operateAll registry later :=
  List.foldl_append

/-- The operations that are accepted, in order. -/
def accepted (registry : Registry) (l : Ledger) : List Operation → List Operation
  | [] => []
  | o :: rest =>
    match l.apply registry o with
    | .ok m => o :: m.accepted registry rest
    | .error _ => l.accepted registry rest

theorem accepted_concat (registry : Registry) (l : Ledger) (operations : List Operation)
    (o : Operation) :
    l.accepted registry (operations ++ [o]) =
      l.accepted registry operations ++
        match (l.operateAll registry operations).apply registry o with
        | .ok _ => [o]
        | .error _ => [] := by
  induction operations generalizing l with
  | nil => simp only [List.nil_append, accepted, operateAll, List.foldl_nil]
  | cons first rest ih =>
    rw [List.cons_append, accepted, accepted, operateAll, List.foldl_cons, operate]
    cases l.apply registry first with
    | ok m => exact congrArg (first :: ·) (ih m)
    | error e => exact ih l

/-- A deployment finds its implementation in the registry. -/
theorem isDeployed_of_deploy {registry : Registry} {d : Deployment} {l : Ledger}
    (h : d.deploy registry = .ok l) :
    ∃ i, registry.get? d.implementation = some i ∧ IsDeployed i.schema i.logic d.deployer l := by
  unfold Deployment.deploy at h
  cases hi : registry.get? d.implementation with
  | none =>
    rw [hi] at h
    cases h
  | some i =>
    rw [hi] at h
    have hl := mapError_eq_ok_iff.mp h
    refine ⟨i, rfl, ?_⟩
    cases hupgradeable : d.upgradeable with
    | true =>
      rw [hupgradeable] at hl
      exact .inl hl
    | false =>
      rw [hupgradeable] at hl
      exact .inr hl

theorem isBound_of_deploy {registry : Registry} {d : Deployment} {l : Ledger}
    (h : d.deploy registry = .ok l) : l.IsBound := by
  obtain ⟨i, -, hdeployed⟩ := isDeployed_of_deploy h
  exact hdeployed.isBound

theorem isBound_operateAll {l : Ledger} (hl : l.IsBound) (registry : Registry)
    (operations : List Operation) : (l.operateAll registry operations).IsBound := by
  rw [operateAll_eq_run]
  exact isBound_run hl _

/-! ## Known ledgers -/

/-- **An accepted operation** rewrites the storage, or puts an implementation of the registry in
place. -/
theorem apply_cases {registry : Registry} {l m : Ledger} {o : Operation}
    (h : l.apply registry o = .ok m) :
    (o.upgradeTo? = none ∧ m = { l with storage := m.storage }) ∨
      ∃ name i r, o = .upgrade name ∧ registry.get? name = some i ∧
        l.upgrade i.schema i.logic = .ok (m, r) := by
  cases o with
  | upgrade name =>
    rw [apply] at h
    cases hi : registry.get? name with
    | none =>
      rw [hi] at h
      cases h
    | some i =>
      rw [hi] at h
      obtain ⟨⟨_, r⟩, hupgrade, rfl⟩ := map_eq_ok_iff.mp (mapError_eq_ok_iff.mp h)
      exact .inr ⟨name, i, r, rfl, hi, hupgrade⟩
  | _ => exact .inl ⟨rfl, (execute_eq_ok_iff.mp (mapError_eq_ok_iff.mp h)).2.2⟩

/-- The active schema and logic are those that the registry has under the name. -/
def IsKnownAs (l : Ledger) (registry : Registry) (name : String) : Prop :=
  ∃ i, registry.get? name = some i ∧ l.schema = i.schema ∧ l.logic = i.logic

theorem isKnownAs_of_deploy {registry : Registry} {d : Deployment} {l : Ledger}
    (h : d.deploy registry = .ok l) : l.IsKnownAs registry d.implementation := by
  obtain ⟨i, hi, hdeployed⟩ := isDeployed_of_deploy h
  obtain ⟨upgradeable, hfound⟩ := found_of_isDeployed hdeployed
  obtain ⟨-, b, -, -, -, hl⟩ := found_eq_ok_iff.mp hfound
  refine ⟨i, hi, ?_, ?_⟩ <;> rw [hl]

/-- An upgrade gives the ledger its name, and other operations leave it. -/
theorem isKnownAs_of_apply {registry : Registry} {l m : Ledger} {name : String} {o : Operation}
    (hl : l.IsKnownAs registry name) (h : l.apply registry o = .ok m) :
    m.IsKnownAs registry (o.upgradeTo?.getD name) := by
  rcases apply_cases h with ⟨hnone, hm⟩ | ⟨implementation, i, r, rfl, hi, hupgrade⟩
  · rw [hnone, hm]
    exact hl
  · obtain ⟨-, b, -, hm, -⟩ := upgrade_eq_ok_iff.mp hupgrade
    rw [hm]
    exact ⟨i, hi, rfl, rfl⟩

/-- The name under which the active implementation was found, after operations on a ledger that goes
by the given one. -/
def activeName (registry : Registry) (name : String) (l : Ledger) (operations : List Operation) :
    String :=
  (l.accepted registry operations).foldl (fun name o => o.upgradeTo?.getD name) name

theorem isKnownAs_operateAll {registry : Registry} {l : Ledger} {name : String}
    (hl : l.IsKnownAs registry name) (operations : List Operation) :
    (l.operateAll registry operations).IsKnownAs registry
      (l.activeName registry name operations) := by
  induction operations generalizing l name with
  | nil => exact hl
  | cons o rest ih =>
    rw [operateAll, List.foldl_cons, operate, activeName, accepted]
    cases happly : l.apply registry o with
    | ok m => exact ih (isKnownAs_of_apply hl happly)
    | error e =>
      -- A refused operation gives the ledger no new name.
      exact ih hl

/-- The active schema and logic are those of an implementation in the registry. -/
def IsKnown (l : Ledger) (registry : Registry) : Prop :=
  ∃ name i, registry.get? name = some i ∧ l.schema = i.schema ∧ l.logic = i.logic

theorem isKnown_of_deploy {registry : Registry} {d : Deployment} {l : Ledger}
    (h : d.deploy registry = .ok l) : l.IsKnown registry :=
  ⟨d.implementation, isKnownAs_of_deploy h⟩

theorem isKnown_operateAll {registry : Registry} {l : Ledger} (hl : l.IsKnown registry)
    (operations : List Operation) : (l.operateAll registry operations).IsKnown registry := by
  obtain ⟨name, hname⟩ := hl
  exact ⟨_, isKnownAs_operateAll hname operations⟩

end Ledger

/-! ## Standard ledgers -/

/-- The logic mints and transfers by the standard methods, and binds to counters in slots of their
own. -/
structure Logic.IsStandardOn (logic : Logic) (schema : Schema) : Prop where
  mint : logic.mint = Logic.standardMint
  transfer : logic.transfer = Logic.standardTransfer
  counters : ∀ b, logic.bind schema = .ok b → b.counterSlots.Nodup

/-- Every implementation of the token is standard. -/
theorem Implementation.isStandardOn_of_mem_builtin {i : Implementation}
    (hi : i ∈ Implementation.builtin) : i.logic.IsStandardOn i.schema := by
  have hcounters : ∀ i ∈ Implementation.builtin,
      passes (i.logic.bind i.schema) (fun b => decide b.counterSlots.Nodup) = true := by
    decide +kernel
  have hcounter : ∀ b, i.logic.bind i.schema = .ok b → b.counterSlots.Nodup := by
    intro b hb
    obtain ⟨b', hb', htest⟩ := exists_of_passes (hcounters i hi)
    rw [Except.ok.inj (hb.symm.trans hb')]
    exact of_decide_eq_true htest
  simp only [Implementation.builtin, List.mem_cons, List.not_mem_nil, or_false] at hi
  rcases hi with rfl | rfl | rfl | rfl <;> exact ⟨rfl, rfl, hcounter⟩

namespace Ledger

/-- A bound ledger whose logic is standard on its schema. -/
structure IsStandard (l : Ledger) : Prop where
  isBound : l.IsBound
  standard : l.logic.IsStandardOn l.schema

/-- **Ledgers of the builtin registry are standard.** -/
theorem isStandard_operateAll {d : Deployment} {l : Ledger} (h : d.deploy .builtin = .ok l)
    (operations : List Operation) : (l.operateAll .builtin operations).IsStandard := by
  refine ⟨isBound_operateAll (isBound_of_deploy h) .builtin operations, ?_⟩
  obtain ⟨name, i, hi, hschema, hlogic⟩ := isKnown_operateAll (isKnown_of_deploy h) operations
  rw [hschema, hlogic]
  exact Implementation.isStandardOn_of_mem_builtin (Registry.mem_of_get?_ofList hi).1

end Ledger

end SlotLedger
