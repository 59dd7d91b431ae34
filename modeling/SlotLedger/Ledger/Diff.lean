import SlotLedger.Document.Value
import SlotLedger.Ledger.Basic

/-!
# Differences of ledgers

How two ledgers differ.  The words of storage are compared one and all; balances and memberships
can only be compared for accounts that are named, since storage does not tell whose they are.

## Main definitions

* `LedgerDiff`, `LedgerDiff.ofLedgers`: the differences.
* `LedgerDiff.isClean`: whether the fingerprints agree.
-/

namespace SlotLedger

/-- An account whose balances differ. -/
structure BalanceDiff where
  account : Account
  balanceA : Amount
  balanceB : Amount
deriving DecidableEq

/-- An account and a role whose memberships differ. -/
structure RoleDiff where
  account : Account
  role : Role
  memberA : Bool
  memberB : Bool
deriving DecidableEq

/-- The differences of a ledger `A` and a ledger `B`. -/
structure LedgerDiff where
  fingerprintA : String
  fingerprintB : String
  implementationA : String
  implementationB : String
  totalSupplyA : Amount
  totalSupplyB : Amount
  totalAuditedA : Option Amount
  totalAuditedB : Option Amount
  /-- The number of slots with a word in `B` only. -/
  wordsAdded : Nat
  /-- The number of slots with a word in `A` only. -/
  wordsRemoved : Nat
  /-- The number of slots with different words in both. -/
  wordsChanged : Nat
  balanceChanges : List BalanceDiff
  roleChanges : List RoleDiff
deriving DecidableEq

namespace LedgerDiff

/-- The number of slots with a word in the second storage only. -/
def countAdded (a b : Storage) : Nat := b.words.countP fun w => a.load w.slot == 0

/-- The number of slots with different words in both storages. -/
def countChanged (a b : Storage) : Nat :=
  a.words.countP fun w => b.load w.slot != 0 && b.load w.slot != w.value

/-- Accounts in ascending order, each once. -/
def distinct (accounts : List Account) : List Account :=
  (accounts.foldl (fun (t : Table Account Unit) a => t.insert a ()) .empty).keys

/-- The account's balances, if they differ. -/
def balanceDiff? (a b : Ledger) (account : Account) : Option BalanceDiff :=
  let diff : BalanceDiff := ⟨account, a.balanceOf account, b.balanceOf account⟩
  if diff.balanceA = diff.balanceB then none else some diff

/-- The account's memberships in a role, if they differ. -/
def roleDiff? (a b : Ledger) (account : Account) (role : Role) : Option RoleDiff :=
  let diff : RoleDiff := ⟨account, role, a.hasRole role account, b.hasRole role account⟩
  if diff.memberA = diff.memberB then none else some diff

/-- The differences of two ledgers, for the named accounts where accounts matter. -/
def ofLedgers (a b : Ledger) (accounts : List Account) : LedgerDiff :=
  let accounts := distinct accounts
  { fingerprintA := a.fingerprint
    fingerprintB := b.fingerprint
    implementationA := a.implementation
    implementationB := b.implementation
    totalSupplyA := a.totalSupply
    totalSupplyB := b.totalSupply
    totalAuditedA := a.totalAudited
    totalAuditedB := b.totalAudited
    wordsAdded := countAdded a.storage b.storage
    wordsRemoved := countAdded b.storage a.storage
    wordsChanged := countChanged a.storage b.storage
    balanceChanges := accounts.filterMap (balanceDiff? a b)
    roleChanges := accounts.flatMap fun account => Role.all.filterMap (roleDiff? a b account) }

/-- Whether the fingerprints agree. -/
def isClean (r : LedgerDiff) : Bool := r.fingerprintA == r.fingerprintB

/-- A count as a document. -/
def countToJson (n : Nat) : Json := .natural (UInt64.ofNat n)

/-- The differences as a document. -/
def toJson (r : LedgerDiff) : Json :=
  .object
    [("fingerprint_a", .string r.fingerprintA), ("fingerprint_b", .string r.fingerprintB),
      ("implementation_a", .string r.implementationA),
      ("implementation_b", .string r.implementationB),
      ("total_supply_a", Word.toJson r.totalSupplyA),
      ("total_supply_b", Word.toJson r.totalSupplyB),
      ("total_audited_a", .ofOption Word.toJson r.totalAuditedA),
      ("total_audited_b", .ofOption Word.toJson r.totalAuditedB),
      ("words_added", countToJson r.wordsAdded), ("words_removed", countToJson r.wordsRemoved),
      ("words_changed", countToJson r.wordsChanged),
      ("balance_changes", .array (r.balanceChanges.map fun d =>
        .object
          [("account", d.account.toJson), ("balance_a", Word.toJson d.balanceA),
            ("balance_b", Word.toJson d.balanceB)])),
      ("role_changes", .array (r.roleChanges.map fun d =>
        .object
          [("account", d.account.toJson), ("role", d.role.toJson), ("member_a", .bool d.memberA),
            ("member_b", .bool d.memberB)]))]

end LedgerDiff

end SlotLedger
