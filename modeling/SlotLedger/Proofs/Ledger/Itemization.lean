import Mathlib.Data.FinEnum
import SlotLedger.Proofs.Ledger.Diff

/-!
# The items of a comparison

A comparison of two ledgers counts the slots with a word in one of them only and the slots with
different words in both, which together are the slots at which the storages differ.  Of the accounts
that are named, in whatever order and however often, it lists those whose balances differ, and the
roles in which their memberships differ.

## Main results

* `LedgerDiff.countAdded_eq_ncard`, `LedgerDiff.countChanged_eq_ncard`: what is counted
* `LedgerDiff.ncard_differing`: the counts add up to the slots that differ
* `LedgerDiff.mem_balanceChanges_iff`, `LedgerDiff.mem_roleChanges_iff`: what is listed
* `LedgerDiff.itemizes_differences`: the whole comparison, and the one the other way round
-/

namespace SlotLedger.LedgerDiff

/-! ## Words -/

section Words

variable (x y : Storage)

/-- The slots with a word in the second storage only. -/
theorem countAdded_eq_ncard :
    countAdded x y = {slot | x.load slot = 0 ∧ y.load slot ≠ 0}.ncard := by
  rw [countAdded, Storage.countP_words]
  congr 1
  ext slot
  simp [and_comm]

/-- The slots with different words in both storages. -/
theorem countChanged_eq_ncard :
    countChanged x y =
      {slot | x.load slot ≠ 0 ∧ y.load slot ≠ 0 ∧ x.load slot ≠ y.load slot}.ncard := by
  rw [countChanged, Storage.countP_words]
  congr 1
  ext slot
  simp [ne_comm]

theorem countChanged_comm : countChanged x y = countChanged y x := by
  rw [countChanged_eq_ncard, countChanged_eq_ncard]
  congr 1
  ext slot
  constructor
  · rintro ⟨hx, hy, hne⟩
    exact ⟨hy, hx, hne.symm⟩
  · rintro ⟨hy, hx, hne⟩
    exact ⟨hx, hy, hne.symm⟩

/-- **The counts add up** to the slots at which the storages differ. -/
theorem ncard_differing :
    countAdded x y + countAdded y x + countChanged x y =
      {slot | x.load slot ≠ y.load slot}.ncard := by
  rw [countAdded_eq_ncard, countAdded_eq_ncard, countChanged_eq_ncard]
  -- No slot is of two kinds, and the slots that differ are those of the three.
  have hsides : Disjoint {slot | x.load slot = 0 ∧ y.load slot ≠ 0}
      {slot | y.load slot = 0 ∧ x.load slot ≠ 0} :=
    Set.disjoint_left.mpr fun slot hadded hremoved => hadded.2 hremoved.1
  have hboth : Disjoint ({slot | x.load slot = 0 ∧ y.load slot ≠ 0} ∪
      {slot | y.load slot = 0 ∧ x.load slot ≠ 0})
      {slot | x.load slot ≠ 0 ∧ y.load slot ≠ 0 ∧ x.load slot ≠ y.load slot} := by
    rw [Set.disjoint_left]
    rintro slot (hadded | hremoved) hchanged
    · exact hchanged.1 hadded.1
    · exact hchanged.2.1 hremoved.1
  rw [← Set.ncard_union_eq hsides, ← Set.ncard_union_eq hboth]
  congr 1
  ext slot
  constructor
  · rintro ((⟨hx, hy⟩ | ⟨hy, hx⟩) | ⟨-, -, hne⟩) heq
    · exact hy (heq.symm.trans hx)
    · exact hx (heq.trans hy)
    · exact hne heq
  · intro hne
    by_cases hx : x.load slot = 0
    · exact .inl (.inl ⟨hx, fun hy => hne (hx.trans hy.symm)⟩)
    · by_cases hy : y.load slot = 0
      · exact .inl (.inr ⟨hy, hx⟩)
      · exact .inr ⟨hx, hy, hne⟩

end Words

/-! ## Accounts -/

/-- The named accounts are taken in ascending order, each once. -/
theorem pairwise_distinct (accounts : List Account) :
    (distinct accounts).Pairwise fun a b => a < b :=
  List.pairwise_map.mpr (Table.pairwise_lt_entries _)

section Accounts

variable {a b : Ledger} {accounts : List Account}

theorem balanceDiff?_eq_some_iff {account : Account} {d : BalanceDiff} :
    balanceDiff? a b account = some d ↔
      d.account = account ∧ d.balanceA = a.balanceOf account ∧
        d.balanceB = b.balanceOf account ∧ d.balanceA ≠ d.balanceB := by
  rw [balanceDiff?, Option.ite_none_left_eq_some]
  constructor
  · rintro ⟨hne, hd⟩
    cases hd
    exact ⟨rfl, rfl, rfl, hne⟩
  · rintro ⟨rfl, hA, hB, hne⟩
    rw [← hA, ← hB]
    exact ⟨hne, rfl⟩

theorem roleDiff?_eq_some_iff {account : Account} {role : Role} {d : RoleDiff} :
    roleDiff? a b account role = some d ↔
      d.account = account ∧ d.role = role ∧ d.memberA = a.hasRole role account ∧
        d.memberB = b.hasRole role account ∧ d.memberA ≠ d.memberB := by
  rw [roleDiff?, Option.ite_none_left_eq_some]
  constructor
  · rintro ⟨hne, hd⟩
    cases hd
    exact ⟨rfl, rfl, rfl, rfl, hne⟩
  · rintro ⟨rfl, rfl, hA, hB, hne⟩
    rw [← hA, ← hB]
    exact ⟨hne, rfl⟩

/-- **The balances listed** are those of the named accounts that differ. -/
theorem mem_balanceChanges_iff {d : BalanceDiff} :
    d ∈ (ofLedgers a b accounts).balanceChanges ↔
      d.account ∈ accounts ∧ d.balanceA = a.balanceOf d.account ∧
        d.balanceB = b.balanceOf d.account ∧ d.balanceA ≠ d.balanceB := by
  rw [ofLedgers, List.mem_filterMap]
  simp only [mem_distinct_iff, balanceDiff?_eq_some_iff]
  constructor
  · rintro ⟨account, hnamed, rfl, hdiff⟩
    exact ⟨hnamed, hdiff⟩
  · rintro ⟨hnamed, hdiff⟩
    exact ⟨_, hnamed, rfl, hdiff⟩

/-- **The memberships listed** are those of the named accounts that differ. -/
theorem mem_roleChanges_iff {d : RoleDiff} :
    d ∈ (ofLedgers a b accounts).roleChanges ↔
      d.account ∈ accounts ∧ d.memberA = a.hasRole d.role d.account ∧
        d.memberB = b.hasRole d.role d.account ∧ d.memberA ≠ d.memberB := by
  simp only [ofLedgers, List.mem_flatMap, List.mem_filterMap, mem_distinct_iff,
    roleDiff?_eq_some_iff]
  constructor
  · rintro ⟨account, hnamed, role, -, rfl, rfl, hdiff⟩
    exact ⟨hnamed, hdiff⟩
  · rintro ⟨hnamed, hdiff⟩
    exact ⟨_, hnamed, _, d.role.mem_all, rfl, rfl, hdiff⟩

variable (a b accounts)

/-- The accounts whose balances are listed ascend. -/
theorem pairwise_balanceChanges :
    (ofLedgers a b accounts).balanceChanges.Pairwise fun d e => d.account < e.account := by
  refine List.pairwise_filterMap.mpr ((pairwise_distinct accounts).imp ?_)
  intro account account' hlt d hd e he
  rw [(balanceDiff?_eq_some_iff.mp hd).1, (balanceDiff?_eq_some_iff.mp he).1]
  exact hlt

/-- The accounts whose memberships are listed ascend, and for one account no role is listed
twice. -/
theorem pairwise_roleChanges :
    (ofLedgers a b accounts).roleChanges.Pairwise fun d e =>
      d.account < e.account ∨ d.account = e.account ∧ d.role ≠ e.role := by
  refine List.pairwise_flatMap.mpr ⟨fun account _ => ?_, (pairwise_distinct accounts).imp ?_⟩
  · -- Within an account the roles come in the order of the list of all, which repeats none.
    have hroles : Role.all.Pairwise fun r s => r ≠ s := by decide
    refine List.pairwise_filterMap.mpr (hroles.imp ?_)
    intro role role' hne d hd e he
    obtain ⟨hdaccount, hdrole, -⟩ := roleDiff?_eq_some_iff.mp hd
    obtain ⟨heaccount, herole, -⟩ := roleDiff?_eq_some_iff.mp he
    rw [hdaccount, heaccount, hdrole, herole]
    exact .inr ⟨rfl, hne⟩
  · -- What is listed for an account comes before all that is listed for a later one.
    intro account account' hlt d hd e he
    obtain ⟨role, -, hd⟩ := List.mem_filterMap.mp hd
    obtain ⟨role', -, he⟩ := List.mem_filterMap.mp he
    rw [(roleDiff?_eq_some_iff.mp hd).1, (roleDiff?_eq_some_iff.mp he).1]
    exact .inl hlt

end Accounts

/-! ## The comparison -/

/-- **A comparison itemizes exactly the differences.**  Its counts are those of the slots with a
word in the second ledger only, in the first only, and with different words in both; they add up to
the slots at which the storages differ, and to zero exactly if the storages are equal.  The other
way round, what was added is removed, what was removed is added, and as much is changed.  Of the
named accounts, each balance that differs is listed once, in the ascending order of the accounts,
and so is each account and role whose membership differs, and nothing else is listed. -/
theorem itemizes_differences (a b : Ledger) (accounts : List Account) :
    let r := ofLedgers a b accounts
    let back := ofLedgers b a accounts
    let x := a.storage.load
    let y := b.storage.load
    (r.wordsAdded = {slot | x slot = 0 ∧ y slot ≠ 0}.ncard ∧
      r.wordsRemoved = {slot | x slot ≠ 0 ∧ y slot = 0}.ncard ∧
      r.wordsChanged = {slot | x slot ≠ 0 ∧ y slot ≠ 0 ∧ x slot ≠ y slot}.ncard) ∧
    (r.wordsAdded + r.wordsRemoved + r.wordsChanged = {slot | x slot ≠ y slot}.ncard ∧
      (r.wordsAdded + r.wordsRemoved + r.wordsChanged = 0 ↔ a.storage = b.storage)) ∧
    (back.wordsAdded = r.wordsRemoved ∧ back.wordsRemoved = r.wordsAdded ∧
      back.wordsChanged = r.wordsChanged) ∧
    (r.balanceChanges.Pairwise (fun d e => d.account < e.account) ∧
      ∀ d, d ∈ r.balanceChanges ↔
        d.account ∈ accounts ∧ d.balanceA = a.balanceOf d.account ∧
          d.balanceB = b.balanceOf d.account ∧ d.balanceA ≠ d.balanceB) ∧
    (r.roleChanges.Pairwise (fun d e =>
        d.account < e.account ∨ d.account = e.account ∧ d.role ≠ e.role) ∧
      ∀ d, d ∈ r.roleChanges ↔
        d.account ∈ accounts ∧ d.memberA = a.hasRole d.role d.account ∧
          d.memberB = b.hasRole d.role d.account ∧ d.memberA ≠ d.memberB) := by
  intro r back x y
  -- What is removed is what the comparison the other way round would add.
  have hremoved : r.wordsRemoved = {slot | x slot ≠ 0 ∧ y slot = 0}.ncard := by
    rw [show r.wordsRemoved = countAdded b.storage a.storage from rfl, countAdded_eq_ncard]
    congr 1
    ext slot
    exact and_comm
  have hzero :
      r.wordsAdded + r.wordsRemoved + r.wordsChanged = 0 ↔ a.storage = b.storage := by
    rw [Nat.add_eq_zero_iff, Nat.add_eq_zero_iff, and_assoc]
    exact counts_eq_zero_iff
  exact ⟨⟨countAdded_eq_ncard a.storage b.storage, hremoved,
      countChanged_eq_ncard a.storage b.storage⟩,
    ⟨ncard_differing a.storage b.storage, hzero⟩,
    ⟨rfl, rfl, countChanged_comm b.storage a.storage⟩,
    ⟨pairwise_balanceChanges a b accounts, fun d => mem_balanceChanges_iff⟩,
    ⟨pairwise_roleChanges a b accounts, fun d => mem_roleChanges_iff⟩⟩

end SlotLedger.LedgerDiff
