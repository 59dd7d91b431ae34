import SlotLedger.Proofs.Ledger.Staging

/-!
# What is committed is what was read

The gate judges a transaction by what it reads, before anything is in storage.  That is worth
something because storage, once the write set is applied to it, reads every slot as the transaction
did: the last edit of a slot counts, whether its word is zero or the old one again, and a slot that
is not written keeps its word.

## Main results

* `Transaction.load_applyAll`: a slot reads the word of the last edit that writes it
* `Transaction.pairwise_balanceChanges`, `Transaction.mem_balanceChanges_iff`: the accounts whose
  balance was written
* `Transaction.commit_reads_as_staged`: the base, the transaction and what it leaves
-/

namespace SlotLedger.Transaction

/-- **A slot reads the word of the last edit that writes it**, and without one as before. -/
theorem load_applyAll (tx : Transaction) (edits : List Edit) (slot : Slot) :
    (tx.applyAll edits).load slot =
      ((edits.findRev? fun e => e.slot? tx.bindings == some slot).map Edit.word).getD
        (tx.load slot) := by
  induction edits generalizing tx with
  | nil => rfl
  | cons e rest ih =>
    rw [applyAll_cons, ih, bindings_apply, load_apply, List.findRev?]
    -- A later edit of the slot hides this one; if there is none, this one may write the slot.
    cases rest.findRev? fun e => e.slot? tx.bindings == some slot with
    | some later => rfl
    | none =>
      by_cases hslot : e.slot? tx.bindings = some slot
      · simp [hslot]
      · simp [hslot]

section Balances

variable (base : Storage) (b : Bindings) (edits : List Edit)

/-- The accounts whose balance was written ascend. -/
theorem pairwise_balanceChanges :
    ((start base b).applyAll edits).balanceChanges.Pairwise fun c d => c.account < d.account :=
  List.pairwise_map.mpr (Table.pairwise_lt_entries _)

/-- A balance is written by an edit that sets it, and by no other. -/
theorem balance_mem_writtenCells_iff {a : Account} :
    .balance a ∈ writtenCells edits ↔ ∃ value, .balance a value ∈ edits := by
  rw [writtenCells, List.mem_filterMap]
  constructor
  · rintro ⟨e, he, hcell⟩
    cases e with
    | balance account value =>
      cases hcell
      exact ⟨value, he⟩
    | _ => cases hcell
  · rintro ⟨value, he⟩
    exact ⟨_, he, rfl⟩

/-- **The balances written**, each with what was committed and what the transaction reads last. -/
theorem mem_balanceChanges_iff {c : BalanceChange} :
    c ∈ ((start base b).applyAll edits).balanceChanges ↔
      (∃ value, .balance c.account value ∈ edits) ∧
        c.before = (View.mk b base.load).balanceOf c.account ∧
        c.after = ((start base b).applyAll edits).view.balanceOf c.account := by
  obtain ⟨account, before, after⟩ := c
  rw [balanceChanges_eq, List.mem_map, ← balance_mem_writtenCells_iff]
  simp only [mem_keys_balancesBefore]
  constructor
  · rintro ⟨a, ha, heq⟩
    cases heq
    exact ⟨ha, rfl, rfl⟩
  · rintro ⟨ha, hbefore, hafter⟩
    refine ⟨account, ha, ?_⟩
    rw [hbefore, hafter]
    rfl

end Balances

/-- **What is committed is what was read.**  Edits staged over any storage, under any bindings and
in any order, lead to a transaction that reads at every slot the word of the last edit that writes
it.  Storage reads the same once the write set is applied to it, so that all readings of the ledger
agree, and a slot that no edit writes keeps its word.  The balance changes list every account whose
balance was set, once and in ascending order, with its balance in the base and the one that the
transaction reads in the end. -/
theorem commit_reads_as_staged (base : Storage) (b : Bindings) (edits : List Edit) :
    let tx := (start base b).applyAll edits
    let committed := base.apply tx.writes
    (∀ slot, committed.load slot = tx.load slot) ∧
      View.mk b committed.load = tx.view ∧
      (∀ slot, tx.load slot =
        ((edits.findRev? fun e => e.slot? b == some slot).map Edit.word).getD (base.load slot)) ∧
      (∀ slot, (∀ e ∈ edits, e.slot? b ≠ some slot) → committed.load slot = base.load slot) ∧
      tx.balanceChanges.Pairwise (fun c d => c.account < d.account) ∧
      ∀ c, c ∈ tx.balanceChanges ↔
        (∃ value, .balance c.account value ∈ edits) ∧
          c.before = (View.mk b base.load).balanceOf c.account ∧
          c.after = tx.view.balanceOf c.account := by
  intro tx committed
  have hbase : tx.base = base := base_applyAll (start base b) edits
  have hload : ∀ slot, committed.load slot = tx.load slot := by
    intro slot
    rw [← load_base_apply_writes tx, hbase]
  have hview : View.mk b committed.load = tx.view := by
    rw [funext hload, view, bindings_applyAll]
    rfl
  refine ⟨hload, hview, load_applyAll (start base b) edits, ?_,
    pairwise_balanceChanges base b edits, fun c => mem_balanceChanges_iff base b edits⟩
  intro slot hslot
  rw [hload, load_applyAll_of_forall_ne (start base b) hslot, load_start]

end SlotLedger.Transaction
