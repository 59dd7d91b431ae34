import SlotLedger.Ledger.Error
import SlotLedger.Ledger.Transaction

/-!
# Stages

A stage is a computation that reads a transaction and changes it by edits alone.  It returns the
edits made, also when it fails, so that whatever it computes, the transaction after it differs from
the transaction before it by setter calls and by nothing else.
-/

namespace SlotLedger

/-- What a stage came to, and the edits it made on the way. -/
structure Staged (α : Type) where
  result : Except LedgerError α
  edits : List Edit

/-- A computation over an open transaction. -/
def Stage (α : Type) : Type := Transaction → Staged α

namespace Stage

/-- The stage that reads and changes nothing. -/
def done {α : Type} (a : α) : Stage α := fun _ => ⟨.ok a, []⟩

/-- One stage after another; the second sees the edits of the first. -/
def andThen {α β : Type} (m : Stage α) (f : α → Stage β) : Stage β := fun tx =>
  let first := m tx
  match first.result with
  | .error e => ⟨.error e, first.edits⟩
  | .ok a =>
    -- Edits are applied only to be read back; the list is what counts.
    let second := f a (tx.applyAll first.edits)
    ⟨second.result, first.edits ++ second.edits⟩

instance : Monad Stage where
  pure := done
  bind := andThen

/-- Read the state. -/
def read {α : Type} (f : View → α) : Stage α := fun tx => ⟨.ok (f tx.view), []⟩

/-- Make one change. -/
def edit (e : Edit) : Stage Unit := fun _ => ⟨.ok (), [e]⟩

/-- Refuse. -/
def fail {α : Type} (e : LedgerError) : Stage α := fun _ => ⟨.error e, []⟩

/-- The value of checked arithmetic. -/
def amount {α : Type} (value : Except AmountFault α) : Stage α := fun _ =>
  ⟨value.mapError .invalidAmount, []⟩

/-- Set the audited amount; `false` where there is no counter for it. -/
def setTotalAudited (value : Amount) : Stage Bool := do
  edit (.totalAudited value)
  read fun v => v.bindings.totalAudited.isSome

/-- Run a stage on a transaction: what it came to and the transaction after it. -/
def run {α : Type} (m : Stage α) (tx : Transaction) : Except LedgerError α × Transaction :=
  let staged := m tx
  (staged.result, tx.applyAll staged.edits)

end Stage

end SlotLedger
