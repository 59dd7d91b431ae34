import SlotLedger.Proofs.Ledger.Commit

/-!
# Data

What a ledger keeps are its cells and three counters.  Where each has a slot of its own an edit
changes the reading of one datum and of no other.  The counters have slots of their own by their
layout, and the cells by the hash.

## Main definitions

* `Datum`: what a ledger keeps
* `Datum.wordAfter`: the word of a datum after edits
* `Bindings.slotAt`: the slot of a datum
* `Bindings.Separates`: the data of the accounts in question have slots of their own

## Main results

* `Bindings.Separates.datum_eq`: one slot, one datum
* `Bindings.Separates.load_applyAll`: a datum reads the word that was last written to it
-/

namespace SlotLedger

/-- What a ledger keeps: its cells and three counters. -/
inductive Datum where
  | cell (c : Cell)
  | initialized
  | totalSupply
  | totalAudited
deriving DecidableEq

/-- Counters are no account's; a cell is among the accounts in question if its own is. -/
def Datum.IsAmong (accounts : Set Account) : Datum → Prop
  | .cell c => c.account ∈ accounts
  | _ => True

/-- The datum an edit writes. -/
def Edit.datum : Edit → Datum
  | .balance account _ => .cell (.balance account)
  | .totalSupply _ => .totalSupply
  | .totalAudited _ => .totalAudited
  | .role r account _ => .cell (.member r account)
  | .initialized => .initialized

/-- The word of a datum after edits: that of the last edit that writes it, and the word before
without one. -/
def Datum.wordAfter (p : Datum) (edits : List Edit) (before : Word) : Word :=
  edits.foldl (fun word e => if e.datum = p then e.word else word) before

namespace Bindings

/-- The slot of a datum; the audited counter may have none. -/
def slotAt (b : Bindings) : Datum → Option Slot
  | .cell c => some (b.cellSlot c)
  | .initialized => some b.initialized
  | .totalSupply => some b.totalSupply
  | .totalAudited => b.totalAudited

theorem slot?_eq_slotAt (b : Bindings) (e : Edit) : e.slot? b = b.slotAt e.datum := by
  cases e <;> rfl

/-- The slots of the three counters. -/
def counterSlots (b : Bindings) : List Slot :=
  b.initialized :: b.totalSupply :: b.totalAudited.toList

/-- The counters, and the cells of the accounts in question, have slots of their own. -/
structure Separates (b : Bindings) (accounts : Set Account) : Prop
    extends b.CellsApart accounts where
  counters : b.counterSlots.Nodup

namespace Separates

variable {b : Bindings} {accounts : Set Account}

theorem lt_of_isLow (h : b.IsLow) {p : Datum} (hp : ∀ c, p ≠ .cell c) {slot : Slot}
    (hslot : b.slotAt p = some slot) : slot.toNat < UInt64.size := by
  cases p with
  | cell c => exact absurd rfl (hp c)
  | initialized => exact Option.some.inj hslot ▸ h.initialized
  | totalSupply => exact Option.some.inj hslot ▸ h.totalSupply
  | totalAudited => exact h.totalAudited slot hslot

/-- **One slot, one datum.** -/
theorem datum_eq (h : b.Separates accounts) {p q : Datum} (hp : p.IsAmong accounts)
    (hq : q.IsAmong accounts) {slot : Slot} (hpslot : b.slotAt p = some slot)
    (hqslot : b.slotAt q = some slot) : p = q := by
  -- A cell is high and a counter low.
  have hmixed : ∀ {c : Cell} {r : Datum}, c.account ∈ accounts → (∀ c, r ≠ .cell c) →
      b.slotAt (.cell c) = some slot → b.slotAt r ≠ some slot := by
    intro c r hc hr hcslot hrslot
    have hhigh := h.high c hc
    rw [Option.some.inj hcslot] at hhigh
    exact absurd (lt_of_isLow h.low hr hrslot) (Nat.not_lt.mpr hhigh)
  have hcounters := h.counters
  rw [counterSlots] at hcounters
  cases p with
  | cell c =>
    cases q with
    | cell d =>
      rw [h.distinct hp hq ((Option.some.inj hpslot).trans (Option.some.inj hqslot).symm)]
    | _ => exact absurd hqslot (hmixed hp (by simp) hpslot)
  | _ =>
    cases q with
    | cell d => exact absurd hpslot (hmixed hq (by simp) hqslot)
    | _ => grind [slotAt]

/-! ## What edits do to readings -/

/-- An edit changes the datum that it writes and no other. -/
theorem load_apply (h : b.Separates accounts) {tx : Transaction} (htx : tx.bindings = b) {e : Edit}
    (he : e.datum.IsAmong accounts) {p : Datum} (hp : p.IsAmong accounts) {slot : Slot}
    (hslot : b.slotAt p = some slot) :
    (tx.apply e).load slot = if e.datum = p then e.word else tx.load slot := by
  rw [Transaction.load_apply, htx, slot?_eq_slotAt]
  by_cases heq : e.datum = p
  · rw [if_pos (heq ▸ hslot), if_pos heq]
  · rw [if_neg fun hwritten => heq (h.datum_eq he hp hwritten hslot), if_neg heq]

variable (h : b.Separates accounts) {edits : List Edit}
  (hedits : ∀ e ∈ edits, e.datum.IsAmong accounts)

include h hedits

/-- **A datum reads the word that was last written to it.** -/
theorem load_applyAll {tx : Transaction} (htx : tx.bindings = b) {p : Datum}
    (hp : p.IsAmong accounts) {slot : Slot} (hslot : b.slotAt p = some slot) :
    (tx.applyAll edits).load slot = p.wordAfter edits (tx.load slot) := by
  induction edits generalizing tx with
  | nil => rfl
  | cons e rest ih =>
    obtain ⟨he, hrest⟩ := List.forall_mem_cons.mp hedits
    rw [Transaction.applyAll_cons, ih hrest ((Transaction.bindings_apply tx e).trans htx),
      h.load_apply htx he hp hslot]
    rfl

variable (base : Storage)

theorem balanceOf_applyAll {a : Account} (ha : a ∈ accounts) :
    ((Transaction.start base b).applyAll edits).view.balanceOf a =
      Datum.wordAfter (.cell (.balance a)) edits ((View.mk b base.load).balanceOf a) := by
  rw [Transaction.view, View.balanceOf, Transaction.bindings_applyAll]
  exact h.load_applyAll hedits rfl (p := .cell (.balance a)) ha rfl

theorem totalSupply_applyAll :
    ((Transaction.start base b).applyAll edits).view.totalSupply =
      Datum.wordAfter .totalSupply edits (View.mk b base.load).totalSupply := by
  rw [Transaction.view, View.totalSupply, Transaction.bindings_applyAll]
  exact h.load_applyAll hedits rfl (p := .totalSupply) trivial rfl

theorem totalAudited_applyAll :
    ((Transaction.start base b).applyAll edits).view.totalAudited =
      (View.mk b base.load).totalAudited.map (Datum.wordAfter .totalAudited edits) := by
  rw [Transaction.view, View.totalAudited, View.totalAudited, Transaction.bindings_applyAll,
    Option.map_map]
  exact Option.map_congr fun slot hslot =>
    h.load_applyAll hedits rfl (p := .totalAudited) trivial hslot

end Separates

end Bindings

end SlotLedger
