import SlotLedger.Ledger.Bindings

/-!
# Transactions

A change staged over committed storage.  Reads see the transaction's own writes; storage sees
nothing of them until the write set is applied.

## Main definitions

* `Edit`: one setter call; all that ledger logic may do to a transaction.
* `Transaction`, `Transaction.apply`: the staged words and the balances before them.
* `Transaction.balanceChanges`: every balance written, before and after.
-/

namespace SlotLedger

/-- One change of the ledger's state. -/
inductive Edit where
  | balance (account : Account) (value : Amount)
  | totalSupply (value : Amount)
  /-- Without effect where there is no audited counter. -/
  | totalAudited (value : Amount)
  | role (role : Role) (account : Account) (member : Bool)
  | initialized
deriving DecidableEq

/-- A change staged over committed storage. -/
structure Transaction where
  base : Storage
  bindings : Bindings
  writes : WriteSet
  /-- The committed balance of every account whose balance was written. -/
  balancesBefore : Table Account Amount

/-- An account whose balance was written, its balance before and after. -/
structure BalanceChange where
  account : Account
  before : Amount
  after : Amount
deriving DecidableEq

namespace Transaction

/-- A transaction without writes. -/
def start (base : Storage) (bindings : Bindings) : Transaction :=
  ⟨base, bindings, .empty, .empty⟩

/-- The word at a slot as the transaction sees it. -/
def load (tx : Transaction) (slot : Slot) : Word := (tx.writes.get? slot).getD (tx.base.load slot)

/-- The state as the transaction sees it. -/
def view (tx : Transaction) : View := ⟨tx.bindings, tx.load⟩

/-- The state before the transaction. -/
def committed (tx : Transaction) : View := ⟨tx.bindings, tx.base.load⟩

/-- Stage a word. -/
def write (tx : Transaction) (slot : Slot) (value : Word) : Transaction :=
  { tx with writes := tx.writes.insert slot value }

/-- The word that marks a member of a role. -/
def membership (member : Bool) : Word := if member then 1 else 0

/-- Remember an account's committed balance, unless it is remembered already. -/
def remember (tx : Transaction) (account : Account) : Transaction :=
  match tx.balancesBefore.get? account with
  -- The balance before the transaction counts, not the one before this write.
  | some _ => tx
  | none =>
    let before := tx.committed.balanceOf account
    { tx with balancesBefore := tx.balancesBefore.insert account before }

/-- Stage one change. -/
def apply (tx : Transaction) : Edit → Transaction
  | .balance account value =>
    (tx.remember account).write (tx.bindings.balanceSlot account) value
  | .totalSupply value => tx.write tx.bindings.totalSupply value
  | .totalAudited value =>
    match tx.bindings.totalAudited with
    | some slot => tx.write slot value
    | none => tx
  | .role role account member => tx.write (tx.bindings.roleSlot role account) (membership member)
  | .initialized => tx.write tx.bindings.initialized 1

/-- Stage changes in order. -/
def applyAll (tx : Transaction) (edits : List Edit) : Transaction := edits.foldl apply tx

/-- Every account whose balance was written, in ascending order, with its balance before and
after. -/
def balanceChanges (tx : Transaction) : List BalanceChange :=
  tx.balancesBefore.entries.map fun e => ⟨e.1, e.2, tx.view.balanceOf e.1⟩

/-- Whether nothing was written. -/
def isEmpty (tx : Transaction) : Bool := tx.writes.isEmpty

end Transaction

end SlotLedger
