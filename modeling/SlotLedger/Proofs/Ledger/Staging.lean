import SlotLedger.Ledger.Stage
import SlotLedger.Proofs.Storage

/-!
# Staged words

A transaction is a list of edits over committed storage.  What an edit writes is one word at one
slot, so a transaction reads a slot as its last edit there left it, and storage reads the same
after the write set is applied.  The balances remembered are the committed ones, one for every
account whose balance was written.

## Main definitions

* `Cell`: what a ledger keeps per account
* `Edit.slot?`, `Edit.word`, `Edit.cell?`: what an edit writes, and where
* `writtenCells`: the cells a list of edits writes

## Main results

* `Transaction.load_applyAll_of_forall_ne`: slots no edit writes read as before
* `Transaction.balanceChanges_eq`: the balances written, before and after
-/

namespace SlotLedger

/-! ## Cells and edits -/

/-- What a ledger keeps per account: a balance, or a membership in a role. -/
inductive Cell where
  | balance (account : Account)
  | member (role : Role) (account : Account)
deriving DecidableEq

/-- The account a cell is kept for. -/
def Cell.account : Cell → Account
  | .balance account => account
  | .member _ account => account

/-- The slot of a cell. -/
def Bindings.cellSlot (b : Bindings) : Cell → Slot
  | .balance account => b.balanceSlot account
  | .member role account => b.roleSlot role account

namespace Edit

/-- The cell an edit writes, unless it writes a slot of the low ones. -/
def cell? : Edit → Option Cell
  | .balance account _ => some (.balance account)
  | .role r account _ => some (.member r account)
  | _ => none

/-- The slot an edit writes; none without an audited counter to write. -/
def slot? (b : Bindings) : Edit → Option Slot
  | .balance account _ => some (b.balanceSlot account)
  | .totalSupply _ => some b.totalSupply
  | .totalAudited _ => b.totalAudited
  | .role r account _ => some (b.roleSlot r account)
  | .initialized => some b.initialized

/-- The word an edit writes. -/
def word : Edit → Word
  | .balance _ value => value
  | .totalSupply value => value
  | .totalAudited value => value
  | .role _ _ member => Transaction.membership member
  | .initialized => 1

/-- An edit writes a cell or one of three low slots. -/
theorem slot?_cases {b : Bindings} {e : Edit} {slot : Slot} (h : e.slot? b = some slot) :
    (∃ c, e.cell? = some c ∧ slot = b.cellSlot c) ∨
      slot = b.initialized ∨ slot = b.totalSupply ∨ b.totalAudited = some slot := by
  cases e with
  | balance account value => exact .inl ⟨.balance account, rfl, (Option.some.inj h).symm⟩
  | totalSupply value => exact .inr (.inr (.inl (Option.some.inj h).symm))
  | totalAudited value => exact .inr (.inr (.inr h))
  | role r account member => exact .inl ⟨.member r account, rfl, (Option.some.inj h).symm⟩
  | initialized => exact .inr (.inl (Option.some.inj h).symm)

end Edit

/-- The cells that edits write. -/
def writtenCells (edits : List Edit) : List Cell := edits.filterMap Edit.cell?

@[simp] theorem writtenCells_nil : writtenCells [] = [] := rfl

@[simp] theorem writtenCells_append (edits later : List Edit) :
    writtenCells (edits ++ later) = writtenCells edits ++ writtenCells later :=
  List.filterMap_append

theorem writtenCells_cons (e : Edit) (edits : List Edit) :
    writtenCells (e :: edits) = e.cell?.toList ++ writtenCells edits := by
  cases h : e.cell? <;> simp [writtenCells, h]

theorem mem_writtenCells_of_cell? {e : Edit} {c : Cell} {edits : List Edit} (he : e ∈ edits)
    (hc : e.cell? = some c) : c ∈ writtenCells edits :=
  List.mem_filterMap.mpr ⟨e, he, hc⟩

/-! ## Transactions -/

namespace Transaction

@[simp] theorem base_remember (tx : Transaction) (account : Account) :
    (tx.remember account).base = tx.base := by
  unfold remember
  split <;> rfl

@[simp] theorem bindings_remember (tx : Transaction) (account : Account) :
    (tx.remember account).bindings = tx.bindings := by
  unfold remember
  split <;> rfl

@[simp] theorem writes_remember (tx : Transaction) (account : Account) :
    (tx.remember account).writes = tx.writes := by
  unfold remember
  split <;> rfl

@[simp] theorem base_apply (tx : Transaction) (e : Edit) : (tx.apply e).base = tx.base := by
  cases e <;> simp only [apply, write, base_remember]
  split <;> rfl

@[simp] theorem bindings_apply (tx : Transaction) (e : Edit) :
    (tx.apply e).bindings = tx.bindings := by
  cases e <;> simp only [apply, write, bindings_remember]
  split <;> rfl

@[simp] theorem applyAll_nil (tx : Transaction) : tx.applyAll [] = tx := rfl

theorem applyAll_cons (tx : Transaction) (e : Edit) (edits : List Edit) :
    tx.applyAll (e :: edits) = (tx.apply e).applyAll edits := rfl

@[simp] theorem base_applyAll (tx : Transaction) (edits : List Edit) :
    (tx.applyAll edits).base = tx.base := by
  induction edits generalizing tx with
  | nil => rfl
  | cons e edits ih => rw [applyAll_cons, ih, base_apply]

@[simp] theorem bindings_applyAll (tx : Transaction) (edits : List Edit) :
    (tx.applyAll edits).bindings = tx.bindings := by
  induction edits generalizing tx with
  | nil => rfl
  | cons e edits ih => rw [applyAll_cons, ih, bindings_apply]

@[simp] theorem committed_applyAll (tx : Transaction) (edits : List Edit) :
    (tx.applyAll edits).committed = tx.committed := by
  rw [committed, base_applyAll, bindings_applyAll, committed]

/-- What an edit writes. -/
theorem writes_apply (tx : Transaction) (e : Edit) :
    (tx.apply e).writes =
      match e.slot? tx.bindings with
      | some slot => tx.writes.insert slot e.word
      | none => tx.writes := by
  cases e with
  | totalAudited value =>
    cases h : tx.bindings.totalAudited <;> simp [apply, write, Edit.slot?, h, Edit.word]
  | _ => simp [apply, write, Edit.slot?, Edit.word]

/-- A slot reads the word an edit writes to it, and else as before. -/
theorem load_apply (tx : Transaction) (e : Edit) (slot : Slot) :
    (tx.apply e).load slot =
      if e.slot? tx.bindings = some slot then e.word else tx.load slot := by
  rw [load, base_apply, writes_apply]
  cases h : e.slot? tx.bindings with
  | none => simp [load]
  | some written =>
    rw [Table.get?_insert]
    by_cases hs : slot = written
    · simp [hs]
    · have hs' : ¬ written = slot := fun h => hs h.symm
      simp [hs, hs', load]

/-- A slot that no edit writes reads as before. -/
theorem load_applyAll_of_forall_ne (tx : Transaction) {edits : List Edit} {slot : Slot}
    (h : ∀ e ∈ edits, e.slot? tx.bindings ≠ some slot) :
    (tx.applyAll edits).load slot = tx.load slot := by
  induction edits generalizing tx with
  | nil => rfl
  | cons e edits ih =>
    obtain ⟨he, hrest⟩ := List.forall_mem_cons.mp h
    rw [applyAll_cons, ih _ (by simpa using hrest), load_apply, if_neg he]

@[simp] theorem load_start (base : Storage) (b : Bindings) (slot : Slot) :
    (start base b).load slot = base.load slot := rfl

/-- **Committing keeps what was read**: storage reads every slot as the transaction did. -/
theorem load_base_apply_writes (tx : Transaction) (slot : Slot) :
    (tx.base.apply tx.writes).load slot = tx.load slot :=
  Storage.load_apply tx.base tx.writes slot

/-! ### The balances before -/

/-- An edit remembers the committed balance of an account it writes, unless one is remembered
already. -/
theorem get?_balancesBefore_apply (tx : Transaction) (e : Edit) (a : Account) :
    (tx.apply e).balancesBefore.get? a =
      if e.cell? = some (.balance a) then
        some ((tx.balancesBefore.get? a).getD (tx.committed.balanceOf a))
      else tx.balancesBefore.get? a := by
  cases e with
  | balance account value =>
    simp only [apply, write, remember, Edit.cell?, Option.some.injEq, Cell.balance.injEq]
    cases h : tx.balancesBefore.get? account with
    | some v =>
      by_cases ha : account = a
      · subst ha
        simp [h]
      · simp [ha]
    | none =>
      rw [Table.get?_insert]
      by_cases ha : account = a
      · subst ha
        simp [h]
      · have ha' : ¬ a = account := fun h => ha h.symm
        simp [ha, ha']
  | totalAudited value => simp only [apply, Edit.cell?]; split <;> rfl
  | _ => rfl

/-- While only committed balances are remembered, edits remember the committed balance of every
account they write, and of no other. -/
theorem get?_balancesBefore_applyAll {tx : Transaction}
    (h : ∀ a v, tx.balancesBefore.get? a = some v → v = tx.committed.balanceOf a)
    (edits : List Edit) (a : Account) :
    (tx.applyAll edits).balancesBefore.get? a =
      if .balance a ∈ writtenCells edits then some (tx.committed.balanceOf a)
      else tx.balancesBefore.get? a := by
  induction edits generalizing tx with
  | nil => simp
  | cons e edits ih =>
    have hcommitted : (tx.apply e).committed = tx.committed := committed_applyAll tx [e]
    have hgetD : (tx.balancesBefore.get? a).getD (tx.committed.balanceOf a) =
        tx.committed.balanceOf a := by
      cases hv : tx.balancesBefore.get? a with
      | none => rfl
      | some v => exact h a v hv
    -- What is remembered after the edit is the committed balance again.
    have hkept : ∀ b v, (tx.apply e).balancesBefore.get? b = some v →
        v = (tx.apply e).committed.balanceOf b := by
      intro b v hv
      rw [hcommitted]
      rw [get?_balancesBefore_apply] at hv
      split at hv
      · cases hw : tx.balancesBefore.get? b with
        | none => simpa [hw] using hv.symm
        | some w => simpa [hw, ← h b w hw] using hv.symm
      · exact h b v hv
    rw [applyAll_cons, ih hkept, get?_balancesBefore_apply, hcommitted, hgetD, writtenCells_cons]
    by_cases he : e.cell? = some (.balance a)
    · simp [he]
    · have hne : Cell.balance a ∉ e.cell?.toList := by simpa [Option.mem_toList] using he
      simp [he, hne]

section Started

variable (base : Storage) (b : Bindings) (edits : List Edit)

/-- The accounts with a remembered balance are those whose balance was written. -/
theorem mem_keys_balancesBefore {a : Account} :
    a ∈ ((start base b).applyAll edits).balancesBefore.keys ↔
      .balance a ∈ writtenCells edits := by
  rw [Table.mem_keys_iff, get?_balancesBefore_applyAll (by simp [start])]
  split
  · exact iff_of_true ⟨_, rfl⟩ ‹_›
  · exact iff_of_false (by simp [start]) ‹_›

/-- **The balances written**: each account once, in ascending order, with its committed balance and
the one the transaction reads last. -/
theorem balanceChanges_eq :
    ((start base b).applyAll edits).balanceChanges =
      ((start base b).applyAll edits).balancesBefore.keys.map fun a =>
        ⟨a, (start base b).committed.balanceOf a,
          ((start base b).applyAll edits).view.balanceOf a⟩ := by
  rw [balanceChanges, Table.keys, List.map_map]
  refine List.map_congr_left fun e he => ?_
  have hget := Table.get?_eq_some_iff.mpr he
  rw [get?_balancesBefore_applyAll (by simp [start])] at hget
  -- Nothing is remembered at the start, so what is remembered was written.
  have hbefore : e.2 = (start base b).committed.balanceOf e.1 := by
    split at hget
    · exact (Option.some.inj hget).symm
    · simp [start] at hget
  simp only [Function.comp_apply, hbefore]

end Started

end Transaction

end SlotLedger
