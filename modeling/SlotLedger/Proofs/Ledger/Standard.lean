import SlotLedger.Ledger.Logic
import SlotLedger.Proofs.Ledger.Gate

/-!
# What the standard methods stage

A stage that is not refused yields its value and its edits.  What a stage made of steps yields is
read off its steps, each of them on the transaction that the steps before it left.

## Main definitions

* `Stage.Yields`: a stage comes to a value, with these edits

## Main results

* `Stage.yields_bind_iff`: one stage after another
* `Logic.yields_standardMint_iff`, `Logic.yields_standardTransfer_iff`,
  `Logic.yields_setRole_iff`, `Logic.yields_countedAuditReport_iff`: when the methods are not
  refused, and what they stage
-/

namespace SlotLedger

namespace Stage

variable {α β : Type} {tx : Transaction}

/-- On an open transaction the stage comes to a value, with these edits. -/
def Yields (m : Stage α) (tx : Transaction) (a : α) (edits : List Edit) : Prop :=
  m tx = ⟨.ok a, edits⟩

/-- **One stage after another**: the second sees the edits of the first. -/
theorem yields_bind_iff {m : Stage α} {f : α → Stage β} {b : β} {edits : List Edit} :
    (m >>= f).Yields tx b edits ↔ ∃ a first second, m.Yields tx a first ∧
      (f a).Yields (tx.applyAll first) b second ∧ edits = first ++ second := by
  have hbind : (m >>= f) tx = m.andThen f tx := rfl
  unfold Yields
  rw [hbind, andThen]
  obtain ⟨result, first⟩ := m tx
  -- A stage that fails ends what would follow it.
  cases result with
  | error e => simp
  | ok a =>
    cases hsecond : f a (tx.applyAll first) with
    | mk result second => grind

theorem yields_pure_iff {a b : α} {edits : List Edit} :
    (pure a : Stage α).Yields tx b edits ↔ a = b ∧ edits = [] := by
  have hpure : (pure a : Stage α) tx = ⟨.ok a, []⟩ := rfl
  rw [Yields, hpure, Staged.mk.injEq, Except.ok.injEq, eq_comm (a := [])]

theorem yields_edit_iff {e : Edit} {u : Unit} {edits : List Edit} :
    (edit e).Yields tx u edits ↔ edits = [e] := by
  rw [Yields, edit, Staged.mk.injEq, eq_comm (a := [e])]
  exact and_iff_right rfl

theorem yields_fail_iff {e : LedgerError} {a : α} {edits : List Edit} :
    (fail e : Stage α).Yields tx a edits ↔ False := by
  rw [Yields, fail, Staged.mk.injEq]
  exact iff_of_false (by rintro ⟨⟨⟩, -⟩) id

/-- What follows a reading sees the value read. -/
theorem yields_read_bind_iff {f : View → α} {g : α → Stage β} {b : β} {edits : List Edit} :
    (read f >>= g).Yields tx b edits ↔ (g (f tx.view)).Yields tx b edits := by
  rw [yields_bind_iff]
  constructor
  · rintro ⟨a, first, second, hread, hrest, rfl⟩
    cases hread
    exact hrest
  · intro h
    exact ⟨f tx.view, [], edits, rfl, h, rfl⟩

/-- What follows an edit sees the word written. -/
theorem yields_edit_bind_iff {e : Edit} {g : Unit → Stage β} {b : β} {edits : List Edit} :
    (edit e >>= g).Yields tx b edits ↔
      ∃ rest, (g ()).Yields (tx.apply e) b rest ∧ edits = e :: rest := by
  rw [yields_bind_iff]
  constructor
  · rintro ⟨a, first, second, hedit, hrest, rfl⟩
    cases hedit
    exact ⟨second, hrest, rfl⟩
  · rintro ⟨rest, hrest, rfl⟩
    exact ⟨(), [e], rest, rfl, hrest, rfl⟩

/-- What follows checked arithmetic sees its value. -/
theorem yields_amount_bind_iff {value : Except AmountFault α} {g : α → Stage β} {b : β}
    {edits : List Edit} :
    (amount value >>= g).Yields tx b edits ↔ ∃ a, value = .ok a ∧ (g a).Yields tx b edits := by
  rw [yields_bind_iff]
  constructor
  · rintro ⟨a, first, second, hvalue, hrest, rfl⟩
    rw [Yields, amount, Staged.mk.injEq, mapError_eq_ok_iff] at hvalue
    obtain ⟨hvalue, rfl⟩ := hvalue
    exact ⟨a, hvalue, hrest⟩
  · rintro ⟨a, rfl, h⟩
    exact ⟨a, [], edits, rfl, h, rfl⟩

/-- What follows a check that changes nothing runs on the same transaction. -/
theorem yields_check_bind_iff {m : Stage Unit} {P : Prop}
    (hcheck : ∀ edits, m.Yields tx () edits ↔ P ∧ edits = []) {g : Unit → Stage β} {b : β}
    {edits : List Edit} : (m >>= g).Yields tx b edits ↔ P ∧ (g ()).Yields tx b edits := by
  rw [yields_bind_iff]
  constructor
  · rintro ⟨⟨⟩, first, second, hfirst, hrest, rfl⟩
    obtain ⟨hP, rfl⟩ := (hcheck first).mp hfirst
    exact ⟨hP, hrest⟩
  · rintro ⟨hP, h⟩
    exact ⟨(), [], edits, (hcheck []).mpr ⟨hP, rfl⟩, h, rfl⟩

end Stage

namespace Amount

theorem requirePositive_eq_ok_iff {a b : Amount} : requirePositive a = .ok b ↔ a ≠ 0 ∧ a = b := by
  unfold requirePositive
  split
  · rename_i hzero
    exact iff_of_false nofun fun h => h.1 hzero
  · rename_i hpositive
    rw [Except.ok.injEq]
    exact (and_iff_right hpositive).symm

theorem checkedAdd_eq_ok_iff {a b c : Amount} :
    checkedAdd a b = .ok c ↔ a.toNat + b.toNat < Word.bound ∧ a + b = c := by
  unfold checkedAdd
  split <;> simp [*]

theorem checkedSub_eq_ok_iff {a b c : Amount} :
    checkedSub a b = .ok c ↔ b.toNat ≤ a.toNat ∧ a - b = c := by
  unfold checkedSub
  split <;> simp [*]

end Amount

namespace Logic

open Stage

variable {tx : Transaction}

theorem yields_requireRole_iff {role : Role} {account : Account} {edits : List Edit} :
    (requireRole role account).Yields tx () edits ↔
      tx.view.hasRole role account = true ∧ edits = [] := by
  rw [requireRole, yields_read_bind_iff]
  cases tx.view.hasRole role account <;> simp [yields_pure_iff, yields_fail_iff]

theorem yields_requireWithinAudit_iff {amount : Amount} {edits : List Edit} :
    (requireWithinAudit amount).Yields tx () edits ↔
      (∀ audited ∈ tx.view.totalAudited,
        tx.view.totalSupply.toNat + amount.toNat ≤ audited.toNat) ∧ edits = [] := by
  rw [requireWithinAudit, yields_read_bind_iff]
  cases tx.view.totalAudited with
  | none => simp [yields_pure_iff]
  | some audited =>
    simp only [yields_read_bind_iff]
    split <;> simp [yields_pure_iff, yields_fail_iff, *]

/-- The edits of a mint over a view. -/
def mintEdits (v : View) (target : Account) (amount : Amount) : List Edit :=
  [.balance target (v.balanceOf target + amount), .totalSupply (v.totalSupply + amount)]

theorem yields_credit_iff {target : Account} {amount : Amount} {edits : List Edit} :
    (credit target amount).Yields tx () edits ↔
      amount ≠ 0 ∧ (tx.view.balanceOf target).toNat + amount.toNat < Word.bound ∧
        tx.view.totalSupply.toNat + amount.toNat < Word.bound ∧
        edits = mintEdits tx.view target amount := by
  simp only [mintEdits, credit, yields_amount_bind_iff, yields_read_bind_iff, yields_edit_bind_iff,
    yields_edit_iff, Amount.requirePositive_eq_ok_iff, Amount.checkedAdd_eq_ok_iff]
  grind

/-- **When the standard mint is not refused**, and what it stages. -/
theorem yields_standardMint_iff {caller target : Account} {amount : Amount} {edits : List Edit} :
    (standardMint caller target amount).Yields tx () edits ↔
      tx.view.hasRole .minter caller = true ∧ amount ≠ 0 ∧
        (∀ audited ∈ tx.view.totalAudited,
          tx.view.totalSupply.toNat + amount.toNat ≤ audited.toNat) ∧
        (tx.view.balanceOf target).toNat + amount.toNat < Word.bound ∧
        tx.view.totalSupply.toNat + amount.toNat < Word.bound ∧
        edits = mintEdits tx.view target amount := by
  rw [standardMint, yields_check_bind_iff fun _ => yields_requireRole_iff, yields_amount_bind_iff]
  simp only [Amount.requirePositive_eq_ok_iff,
    yields_check_bind_iff fun _ => yields_requireWithinAudit_iff, yields_credit_iff]
  grind

/-- **When the standard transfer is not refused**, and what it stages: the receiver is read after
the debit. -/
theorem yields_standardTransfer_iff {caller receiver : Account} {amount : Amount}
    {edits : List Edit} :
    (standardTransfer caller receiver amount).Yields tx () edits ↔
      amount ≠ 0 ∧ amount.toNat ≤ (tx.view.balanceOf caller).toNat ∧
        ∃ received,
          (tx.apply (.balance caller (tx.view.balanceOf caller - amount))).view.balanceOf
            receiver = received ∧
          received.toNat + amount.toNat < Word.bound ∧
          edits = [.balance caller (tx.view.balanceOf caller - amount),
            .balance receiver (received + amount)] := by
  simp only [standardTransfer, yields_amount_bind_iff, yields_read_bind_iff,
    Amount.requirePositive_eq_ok_iff]
  by_cases hshort : tx.view.balanceOf caller < amount
  · have hshort' : ¬ amount.toNat ≤ (tx.view.balanceOf caller).toNat :=
      Nat.not_le.mpr hshort
    simp [hshort, hshort', yields_fail_iff]
  · have henough : amount.toNat ≤ (tx.view.balanceOf caller).toNat := Nat.not_lt.mp hshort
    simp only [hshort, if_false, yields_amount_bind_iff, yields_read_bind_iff, yields_edit_bind_iff,
      yields_edit_iff, Amount.checkedSub_eq_ok_iff, Amount.checkedAdd_eq_ok_iff]
    grind

/-! ### Roles and reports -/

/-- **When a role is set**, and what that stages. -/
theorem yields_setRole_iff {member : Bool} {caller account : Account} {role : Role}
    {edits : List Edit} :
    (setRole member caller role account).Yields tx () edits ↔
      tx.view.hasRole role.administrator caller = true ∧ edits = [.role role account member] := by
  rw [setRole, yields_check_bind_iff fun _ => yields_requireRole_iff, yields_edit_iff]

theorem not_yields_unsupportedAuditReport {version : UInt32} {caller : Account} {amount : Amount}
    {edits : List Edit} : ¬ (unsupportedAuditReport version caller amount).Yields tx () edits :=
  yields_fail_iff.mp

/-- What follows setting the audited amount sees it set, and whether there is a counter for it. -/
theorem yields_setTotalAudited_bind_iff {value : Amount} {g : Bool → Stage Unit}
    {edits : List Edit} :
    (setTotalAudited value >>= g).Yields tx () edits ↔
      ∃ rest, (g tx.bindings.totalAudited.isSome).Yields (tx.apply (.totalAudited value)) () rest ∧
        edits = .totalAudited value :: rest := by
  have hset : ∀ {b : Bool} {first : List Edit}, (setTotalAudited value).Yields tx b first ↔
      b = tx.bindings.totalAudited.isSome ∧ first = [.totalAudited value] := by
    intro b first
    have hvalue : setTotalAudited value tx =
        ⟨.ok (tx.apply (.totalAudited value)).bindings.totalAudited.isSome,
          [.totalAudited value]⟩ := rfl
    rw [Yields, hvalue, Transaction.bindings_apply, Staged.mk.injEq, Except.ok.injEq,
      eq_comm (b := b), eq_comm (b := first)]
  rw [yields_bind_iff]
  constructor
  · rintro ⟨b, first, second, hfirst, hrest, rfl⟩
    obtain ⟨rfl, rfl⟩ := hset.mp hfirst
    exact ⟨second, hrest, rfl⟩
  · rintro ⟨rest, hrest, rfl⟩
    exact ⟨_, _, rest, hset.mpr ⟨rfl, rfl⟩, hrest, rfl⟩

/-- **When an audit report is not refused**, and what it stages: a report of zero stages nothing,
any other needs a counter and room in it. -/
theorem yields_countedAuditReport_iff {version : UInt32} {caller : Account} {amount : Amount}
    {edits : List Edit} :
    (countedAuditReport version caller amount).Yields tx () edits ↔
      tx.view.hasRole .audit caller = true ∧
        (amount = 0 ∧ edits = [] ∨
          amount ≠ 0 ∧ ∃ current, tx.view.totalAudited = some current ∧
            current.toNat + amount.toNat < Word.bound ∧
            edits = [.totalAudited (current + amount)]) := by
  rw [countedAuditReport, yields_check_bind_iff fun _ => yields_requireRole_iff]
  refine and_congr_right fun _ => ?_
  have haudited : tx.view.totalAudited = tx.bindings.totalAudited.map tx.load := rfl
  by_cases hzero : amount = 0
  · simp [hzero, yields_pure_iff]
  · simp only [hzero, if_false, ne_eq, not_false_eq_true, false_and, false_or, true_and,
      yields_read_bind_iff, yields_amount_bind_iff, yields_setTotalAudited_bind_iff,
      Amount.checkedAdd_eq_ok_iff, haudited]
    -- Without a counter nothing is set, and the report fails after all.
    cases tx.bindings.totalAudited with
    | none => simp [yields_fail_iff]
    | some slot => simp [yields_pure_iff]

end Logic

end SlotLedger
