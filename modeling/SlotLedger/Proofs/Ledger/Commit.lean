import Mathlib.Data.Set.Function
import SlotLedger.Proofs.Ledger.Gate

/-!
# Commits

A commit puts a transaction that passed the gate into storage.  Everything a commit changes it
changes through edits, so a slot that no edit writes keeps its word.  Cells live at hashed slots;
that the hash keeps them apart from each other and from the low slots is an assumption on the
accounts in question, and all that is ever assumed of it.

## Main definitions

* `Commits b before edits after`: edits over `before` pass the gate and leave `after`
* `Bindings.IsLow`: the slots of single words are low ones
* `Bindings.CellsDistinct`, `Bindings.CellsHigh`, `Bindings.CellsApart`: the hash keeps cells apart

## Main results

* `Commits.view_eq`: committed storage reads as the transaction did
* `Commits.load_cellSlot`: a cell that no edit writes keeps its word
-/

namespace SlotLedger

/-- Edits staged over `before` pass the gate and are committed to `after`. -/
structure Commits (b : Bindings) (before : Storage) (edits : List Edit) (after : Storage) :
    Prop where
  accepted : ((Transaction.start before b).applyAll edits).validate b.totalAudited.isSome = .ok ()
  stored : after = before.apply ((Transaction.start before b).applyAll edits).writes

/-! ## Where cells live -/

namespace Bindings

/-- The slots of single words are numbers of 64 bits. -/
structure IsLow (b : Bindings) : Prop where
  initialized : b.initialized.toNat < UInt64.size
  totalSupply : b.totalSupply.toNat < UInt64.size
  totalAudited : ∀ slot ∈ b.totalAudited, slot.toNat < UInt64.size

/-- The cells of the accounts in question have slots of their own. -/
def CellsDistinct (b : Bindings) (accounts : Set Account) : Prop :=
  Set.InjOn b.cellSlot {c | c.account ∈ accounts}

/-- The cells of the accounts in question are no low slots. -/
def CellsHigh (b : Bindings) (accounts : Set Account) : Prop :=
  ∀ c : Cell, c.account ∈ accounts → UInt64.size ≤ (b.cellSlot c).toNat

/-- The cells of the accounts in question are apart from each other and from the single words. -/
structure CellsApart (b : Bindings) (accounts : Set Account) : Prop where
  low : b.IsLow
  distinct : b.CellsDistinct accounts
  high : b.CellsHigh accounts

/-- Where a cell lives depends on the two mappings alone. -/
theorem cellSlot_congr {b b' : Bindings} (hbalances : b'.balances = b.balances)
    (hroles : b'.roles = b.roles) : b'.cellSlot = b.cellSlot := by
  funext c
  cases c with
  | balance a => rw [cellSlot, balanceSlot, hbalances]; rfl
  | member r a => rw [cellSlot, roleSlot, hroles]; rfl

end Bindings

/-- Every cell of the given accounts. -/
def cellsOf (accounts : List Account) : List Cell :=
  accounts.flatMap fun a => .balance a :: Role.all.map (.member · a)

theorem mem_cellsOf {accounts : List Account} {c : Cell} (h : c.account ∈ accounts) :
    c ∈ cellsOf accounts := by
  refine List.mem_flatMap.mpr ⟨c.account, h, ?_⟩
  cases c with
  | balance a => exact List.mem_cons_self ..
  | member r a => exact List.mem_cons_of_mem _ (List.mem_map.mpr ⟨r, r.mem_all, rfl⟩)

/-- The assumptions on the hash hold of a list of accounts if the leading digits of their cells'
slots are distinct and not zero. -/
theorem Bindings.cells_of_leading {b : Bindings} {accounts : List Account} {leading : List Nat}
    (h : ((cellsOf accounts).map fun c => (b.cellSlot c).toNat >>> 240) = leading)
    (hnodup : leading.Nodup) (hpos : 0 ∉ leading) :
    b.CellsDistinct {a | a ∈ accounts} ∧ b.CellsHigh {a | a ∈ accounts} := by
  subst h
  constructor
  · intro c hc c' hc' heq
    exact List.inj_on_of_nodup_map hnodup (mem_cellsOf hc) (mem_cellsOf hc')
      (congrArg (fun slot : Slot => slot.toNat >>> 240) heq)
  · intro c hc
    have hne : (b.cellSlot c).toNat >>> 240 ≠ 0 := fun hzero =>
      hpos (List.mem_map.mpr ⟨c, mem_cellsOf hc, hzero⟩)
    rw [Nat.shiftRight_eq_div_pow] at hne
    have hsize : UInt64.size = 2 ^ 64 := rfl
    omega

set_option maxRecDepth 100000 in
/-- They hold of two accounts where the mappings are those of the token's layout. -/
theorem Bindings.cells_of_token {b : Bindings} (hbalances : b.balances = 1) (hroles : b.roles = 3) :
    b.CellsDistinct {a | a ∈ [0xd0, 0xb0]} ∧ b.CellsHigh {a | a ∈ [0xd0, 0xb0]} := by
  have hleading : ((cellsOf [0xd0, 0xb0]).map fun c =>
      ((Bindings.mk 0 1 2 3 none).cellSlot c).toNat >>> 240) =
        [23079, 57481, 57011, 15738, 60468, 3444, 63363, 18216] := by
    decide +kernel
  rw [← cellSlot_congr (b := .mk 0 1 2 3 none) hbalances hroles] at hleading
  exact cells_of_leading hleading (by decide) (by decide)

/-! ## What a commit does -/

namespace Commits

variable {b : Bindings} {before after : Storage} {edits : List Edit}

/-- Committed storage reads as the transaction did. -/
theorem load_eq (h : Commits b before edits after) (slot : Slot) :
    after.load slot = ((Transaction.start before b).applyAll edits).load slot := by
  have hbase : ((Transaction.start before b).applyAll edits).base = before := by
    rw [Transaction.base_applyAll]
    rfl
  rw [h.stored, ← Transaction.load_base_apply_writes, hbase]

theorem view_eq (h : Commits b before edits after) :
    View.mk b after.load = ((Transaction.start before b).applyAll edits).view := by
  rw [Transaction.view, Transaction.bindings_applyAll, funext h.load_eq]
  rfl

/-- A slot that no edit writes keeps its word. -/
theorem load_of_forall_ne (h : Commits b before edits after) {slot : Slot}
    (hslot : ∀ e ∈ edits, e.slot? b ≠ some slot) : after.load slot = before.load slot := by
  rw [h.load_eq, Transaction.load_applyAll_of_forall_ne (.start before b) hslot,
    Transaction.load_start]

/-- A cell that no edit writes keeps its word. -/
theorem load_cellSlot (h : Commits b before edits after) {accounts : Set Account}
    (hb : b.CellsApart accounts) (hwritten : ∀ c ∈ writtenCells edits, c.account ∈ accounts)
    {c : Cell} (hc : c.account ∈ accounts) (hfresh : c ∉ writtenCells edits) :
    after.load (b.cellSlot c) = before.load (b.cellSlot c) := by
  refine h.load_of_forall_ne fun e he hslot => ?_
  have hc_high := hb.high c hc
  rcases Edit.slot?_cases hslot with ⟨c', hc', heq⟩ | heq | heq | haudited
  · have hmem := mem_writtenCells_of_cell? he hc'
    exact hfresh (hb.distinct hc (hwritten c' hmem) heq ▸ hmem)
  · rw [heq] at hc_high
    exact absurd hb.low.initialized (Nat.not_lt.mpr hc_high)
  · rw [heq] at hc_high
    exact absurd hb.low.totalSupply (Nat.not_lt.mpr hc_high)
  · exact absurd (hb.low.totalAudited _ haudited) (Nat.not_lt.mpr hc_high)

/-- The audited amount does not fall. -/
theorem audited_le (h : Commits b before edits after) :
    ∀ x ∈ (View.mk b before.load).totalAudited, ∀ y ∈ (View.mk b after.load).totalAudited,
      x ≤ y := by
  rw [h.view_eq]
  have := (Transaction.validate_eq_ok_iff.mp h.accepted).2.2.1
  rwa [Transaction.IsMonotone, Transaction.committed_applyAll] at this

/-- While there is a counter, the supply rises at most to the audited amount. -/
theorem supply_le_audited (h : Commits b before edits after)
    (haudited : b.totalAudited.isSome = true)
    (hrise : (View.mk b before.load).totalSupply < (View.mk b after.load).totalSupply) :
    ∃ y ∈ (View.mk b after.load).totalAudited, (View.mk b after.load).totalSupply ≤ y := by
  rw [h.view_eq] at hrise ⊢
  have hcapped := (Transaction.validate_eq_ok_iff.mp h.accepted).2.2.2 haudited
  rw [Transaction.IsCapped, Transaction.committed_applyAll] at hcapped
  exact hcapped hrise

end Commits

end SlotLedger
