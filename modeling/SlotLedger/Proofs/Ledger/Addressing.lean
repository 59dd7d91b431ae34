import SlotLedger.Ledger.Implementation
import SlotLedger.Proofs.Bytes
import SlotLedger.Proofs.Ledger.Commit

/-!
# Where the hash puts cells

The slot of a balance is a digest of its account's key and a base slot; that of a membership is a
digest of its account's key and another slot, which is itself a digest of the role's key and a base
slot.  Both are entries of mappings within mappings, one deep and two deep.  Two such entries share a
slot only if two of the messages hashed on the way to them have one digest, or if the digest of one
of them is a base slot.  This is all that keeping cells apart asks of Keccak.

## Main definitions

* `Keccak.Collide`, `Keccak.IsLow`, `Keccak.FailsOn`: how digests can fail to tell messages apart
* `nestedSlot`, `nestedPreimages`: an entry of mappings within mappings, and what is hashed for it
* `Bindings.preimages`: what is hashed for a cell

## Main results

* `eq_or_failsOn_of_nestedSlot_eq`: entries that share a slot are one, but for a failure of the hash
* `Bindings.failsOn_of_cellSlot_eq`: the same of cells, and of a cell and a slot of single words
* `Bindings.cells_of_not_failsOn`: without such failures cells are apart
-/

namespace SlotLedger

/-! ## Digests -/

namespace Keccak

/-- Two different messages have one digest. -/
def Collide (m n : Bytes) : Prop := m ≠ n ∧ digest m = digest n

/-- The digest of a message, read as a number, has 64 bits only. -/
def IsLow (m : Bytes) : Prop := Bytes.ofBigEndian (digest m) < UInt64.size

/-- A message of one list collides with a message of another, or the digest of one in either list is
low. -/
def FailsOn (ms ns : List Bytes) : Prop :=
  (∃ m ∈ ms, ∃ n ∈ ns, Collide m n) ∨ ∃ m ∈ ms ++ ns, IsLow m

instance (m n : Bytes) : Decidable (Collide m n) := inferInstanceAs (Decidable (_ ∧ _))

instance (m : Bytes) : Decidable (IsLow m) := inferInstanceAs (Decidable (_ < _))

instance (ms ns : List Bytes) : Decidable (FailsOn ms ns) := inferInstanceAs (Decidable (_ ∨ _))

theorem FailsOn.cons {ms ns : List Bytes} (h : FailsOn ms ns) (m n : Bytes) :
    FailsOn (m :: ms) (n :: ns) := by
  rcases h with ⟨m', hm, n', hn, hcollide⟩ | ⟨m', hm, hlow⟩
  · exact .inl ⟨m', .tail _ hm, n', .tail _ hn, hcollide⟩
  · refine .inr ⟨m', ?_, hlow⟩
    rcases List.mem_append.mp hm with hm | hm
    · exact List.mem_append_left _ (.tail _ hm)
    · exact List.mem_append_right _ (.tail _ hm)

end Keccak

/-! ## Entries of mappings -/

/-- What is hashed for the entry of a mapping: the key's octets, then the base slot's. -/
def mappingPreimage (base : Slot) (key : Word) : Bytes := Word.bytes key ++ Word.bytes base

/-- The slot under keys of mappings within mappings, the innermost key first; without keys it is the
base slot. -/
def nestedSlot (base : Slot) : List Word → Slot
  | [] => base
  | key :: outer => mappingSlot (nestedSlot base outer) key

/-- What is hashed on the way to a slot, the last message first. -/
def nestedPreimages (base : Slot) : List Word → List Bytes
  | [] => []
  | key :: outer => mappingPreimage (nestedSlot base outer) key :: nestedPreimages base outer

section Entries

variable {base base' : Slot} {key key' : Word} {keys keys' : List Word}

theorem length_mappingPreimage (base : Slot) (key : Word) :
    (mappingPreimage base key).length = 64 := by
  rw [mappingPreimage, List.length_append, Word.length_bytes, Word.length_bytes]

theorem exists_eq_of_mem_nestedPreimages {m : Bytes} (hm : m ∈ nestedPreimages base keys) :
    ∃ slot key, m = mappingPreimage slot key := by
  induction keys with
  | nil => cases hm
  | cons key outer ih =>
    rcases List.mem_cons.mp hm with rfl | hm
    · exact ⟨_, _, rfl⟩
    · exact ih hm

/-- Key and base slot take up half of the message each. -/
theorem mappingPreimage_inj (h : mappingPreimage base key = mappingPreimage base' key') :
    base = base' ∧ key = key' := by
  have hlength : (Word.bytes key).length = (Word.bytes key').length := by
    rw [Word.length_bytes, Word.length_bytes]
  obtain ⟨hkey, hbase⟩ := List.append_inj h hlength
  exact ⟨Word.bytes_inj hbase, Word.bytes_inj hkey⟩

theorem toNat_mappingSlot (base : Slot) (key : Word) : (mappingSlot base key).toNat =
    Bytes.ofBigEndian (Keccak.digest (mappingPreimage base key)) :=
  Word.toNat_ofBytes (Keccak.length_digest _)

/-- **Entries of mappings** share a slot if they are one entry, and else where the hash collides. -/
theorem eq_or_collide_of_mappingSlot_eq (h : mappingSlot base key = mappingSlot base' key') :
    (base = base' ∧ key = key') ∨
      Keccak.Collide (mappingPreimage base key) (mappingPreimage base' key') := by
  by_cases hsame : mappingPreimage base key = mappingPreimage base' key'
  · exact .inl (mappingPreimage_inj hsame)
  · refine .inr ⟨hsame, ?_⟩
    have hbytes := congrArg Word.bytes h
    rwa [mappingSlot, mappingSlot, Word.bytes_ofBytes (Keccak.length_digest _),
      Word.bytes_ofBytes (Keccak.length_digest _)] at hbytes

/-- The slot under a key is a base slot only if its digest is low. -/
theorem isLow_of_nestedSlot_lt (h : (nestedSlot base (key :: keys)).toNat < UInt64.size) :
    ∃ m ∈ nestedPreimages base (key :: keys), Keccak.IsLow m := by
  refine ⟨_, List.mem_cons_self .., ?_⟩
  rwa [nestedSlot, toNat_mappingSlot] at h

/-- **Entries of nested mappings** at base slots share a slot if they are one entry, and else where
the hash fails on what was hashed for them. -/
theorem eq_or_failsOn_of_nestedSlot_eq (hbase : base.toNat < UInt64.size)
    (hbase' : base'.toNat < UInt64.size) (h : nestedSlot base keys = nestedSlot base' keys') :
    (base = base' ∧ keys = keys') ∨
      Keccak.FailsOn (nestedPreimages base keys) (nestedPreimages base' keys') := by
  -- Keys are taken off from the innermost on, as long as there are some on either side.
  induction keys generalizing keys' with
  | nil =>
    cases keys' with
    | nil => exact .inl ⟨h, rfl⟩
    | cons key' outer' =>
      -- A base slot is low, so the digest that it equals is.
      have hslot : (nestedSlot base' (key' :: outer')).toNat < UInt64.size := by
        rw [← h]
        exact hbase
      obtain ⟨m, hm, hlow⟩ := isLow_of_nestedSlot_lt hslot
      exact .inr (.inr ⟨m, hm, hlow⟩)
  | cons key outer ih =>
    cases keys' with
    | nil =>
      have hslot : (nestedSlot base (key :: outer)).toNat < UInt64.size := by
        rw [h]
        exact hbase'
      obtain ⟨m, hm, hlow⟩ := isLow_of_nestedSlot_lt hslot
      exact .inr (.inr ⟨m, List.mem_append_left _ hm, hlow⟩)
    | cons key' outer' =>
      rcases eq_or_collide_of_mappingSlot_eq h with ⟨houter, rfl⟩ | hcollide
      · rcases ih houter with ⟨hsame, rfl⟩ | hfails
        · exact .inl ⟨hsame, rfl⟩
        · exact .inr (hfails.cons _ _)
      · exact .inr (.inl ⟨_, List.mem_cons_self .., _, List.mem_cons_self .., hcollide⟩)

end Entries

/-! ## Cells -/

set_option maxRecDepth 100000 in
/-- Different roles have different keys: zero and the digests of two names. -/
theorem Role.key_inj {r s : Role} (h : r.key = s.key) : r = s := by
  have hkeys : ∀ r ∈ all, ∀ s ∈ all, r.key = s.key → r = s := by decide +kernel
  exact hkeys r r.mem_all s s.mem_all h

namespace Cell

/-- The keys a cell is found under, the innermost one first. -/
def keys : Cell → List Word
  | balance account => [account.key]
  | member role account => [account.key, role.key]

theorem keys_inj {c d : Cell} (h : c.keys = d.keys) : c = d := by
  cases c with
  | balance a =>
    cases d with
    | balance a' =>
      obtain ⟨ha, -⟩ := List.cons_eq_cons.mp h
      rw [Account.key_inj ha]
    | member s a' => cases (List.cons_eq_cons.mp h).2
  | member r a =>
    cases d with
    | balance a' => cases (List.cons_eq_cons.mp h).2
    | member s a' =>
      obtain ⟨ha, hrest⟩ := List.cons_eq_cons.mp h
      obtain ⟨hr, -⟩ := List.cons_eq_cons.mp hrest
      rw [Account.key_inj ha, Role.key_inj hr]

end Cell

namespace Bindings

/-- The base slot of the mapping a cell is an entry of. -/
def baseOf (b : Bindings) : Cell → Slot
  | .balance _ => b.balances
  | .member _ _ => b.roles

/-- What is hashed for the slot of a cell, the last message first. -/
def preimages (b : Bindings) (c : Cell) : List Bytes := nestedPreimages (b.baseOf c) c.keys

variable {b : Bindings}

theorem cellSlot_eq_nestedSlot (b : Bindings) (c : Cell) :
    b.cellSlot c = nestedSlot (b.baseOf c) c.keys := by
  cases c <;> rfl

/-- A cell has a low slot only if a digest on the way to it is low. -/
theorem isLow_of_cellSlot_lt {c : Cell} (h : (b.cellSlot c).toNat < UInt64.size) :
    ∃ m ∈ b.preimages c, Keccak.IsLow m := by
  cases c <;> exact isLow_of_nestedSlot_lt h

section LowBases

variable (hbalances : b.balances.toNat < UInt64.size) (hroles : b.roles.toNat < UInt64.size)

include hbalances hroles

/-- Cells share a slot if they are one cell, and else where the hash fails. -/
theorem eq_or_failsOn_of_cellSlot_eq {c d : Cell} (h : b.cellSlot c = b.cellSlot d) :
    c = d ∨ Keccak.FailsOn (b.preimages c) (b.preimages d) := by
  have hbase : ∀ c, (b.baseOf c).toNat < UInt64.size := by
    intro c
    cases c with
    | balance _ => exact hbalances
    | member _ _ => exact hroles
  rw [cellSlot_eq_nestedSlot, cellSlot_eq_nestedSlot] at h
  rcases eq_or_failsOn_of_nestedSlot_eq (hbase c) (hbase d) h with ⟨-, hkeys⟩ | hfails
  · exact .inl (Cell.keys_inj hkeys)
  · exact .inr hfails

/-- **What the separation of cells rests on**: where the hash does not fail on the cells of the
accounts in question, they have slots of their own, and none of them is low. -/
theorem cells_of_not_failsOn {accounts : Set Account}
    (h : ∀ c d : Cell, c.account ∈ accounts → d.account ∈ accounts →
      ¬ Keccak.FailsOn (b.preimages c) (b.preimages d)) :
    b.CellsDistinct accounts ∧ b.CellsHigh accounts := by
  constructor
  · intro c hc d hd heq
    exact (eq_or_failsOn_of_cellSlot_eq hbalances hroles heq).resolve_right (h c d hc hd)
  · intro c hc
    by_contra hlow
    obtain ⟨m, hm, hdigest⟩ := isLow_of_cellSlot_lt (Nat.not_le.mp hlow)
    exact h c c hc hc (.inr ⟨m, List.mem_append_left _ hm, hdigest⟩)

end LowBases

/-- **Cells have slots of their own, up to Keccak.**  If two different cells share a slot, then
among the messages that were hashed for the one and for the other there are two with one digest, or
one whose digest is low; and if a cell lies at a slot of 64 bits, where the single words are, then
one of the messages hashed for it has a low digest.  All of these are messages of sixty-four octets,
a key and the slot of a mapping.  The names of roles are none of them, since the keys that are
hashed from the names are known to differ. -/
theorem failsOn_of_cellSlot_eq {b : Bindings} (hbalances : b.balances.toNat < UInt64.size)
    (hroles : b.roles.toNat < UInt64.size) :
    (∀ c d : Cell, c ≠ d → b.cellSlot c = b.cellSlot d →
      Keccak.FailsOn (b.preimages c) (b.preimages d)) ∧
    (∀ (c : Cell) (slot : Slot), slot.toNat < UInt64.size → b.cellSlot c = slot →
      ∃ m ∈ b.preimages c, Keccak.IsLow m) ∧
    ∀ c : Cell, ∀ m ∈ b.preimages c,
      m.length = 64 ∧ ∃ base key, m = mappingPreimage base key := by
  refine ⟨fun c d hne heq => ?_, fun c slot hlow heq => ?_, fun c m hm => ?_⟩
  · exact (eq_or_failsOn_of_cellSlot_eq hbalances hroles heq).resolve_left hne
  · exact isLow_of_cellSlot_lt (heq ▸ hlow)
  · obtain ⟨base, key, rfl⟩ := exists_eq_of_mem_nestedPreimages hm
    exact ⟨length_mappingPreimage base key, base, key, rfl⟩

/-- The bindings of the token's first layout. -/
def tokenV1 : Bindings := ⟨0, 1, 2, 3, none⟩

set_option maxRecDepth 100000 in
/-- No cells that share a slot are known, so this is the theorem read backwards: where the token
keeps its cells, the hash does not fail on an account's balance and its memberships as minter and
as auditor, so they have slots of their own, and that of the balance is not low. -/
theorem cellSlot_ne_tokenV1 :
    resolve .tokenV1 false = .ok tokenV1 ∧
      (tokenV1.balances.toNat < UInt64.size ∧ tokenV1.roles.toNat < UInt64.size) ∧
      tokenV1.cellSlot (.member .minter 0xd0) ≠ tokenV1.cellSlot (.member .audit 0xd0) ∧
      tokenV1.cellSlot (.balance 0xd0) ≠ tokenV1.cellSlot (.member .minter 0xd0) ∧
      UInt64.size ≤ (tokenV1.cellSlot (.balance 0xd0)).toNat := by
  have hbalances : tokenV1.balances.toNat < UInt64.size := by decide
  have hroles : tokenV1.roles.toNat < UInt64.size := by decide
  have hmembers : ¬ Keccak.FailsOn (tokenV1.preimages (.member .minter 0xd0))
      (tokenV1.preimages (.member .audit 0xd0)) := by
    decide +kernel
  have hmixed : ¬ Keccak.FailsOn (tokenV1.preimages (.balance 0xd0))
      (tokenV1.preimages (.member .minter 0xd0)) := by
    decide +kernel
  obtain ⟨hcells, hsingle, -⟩ := failsOn_of_cellSlot_eq hbalances hroles
  refine ⟨rfl, ⟨hbalances, hroles⟩, fun heq => hmembers (hcells _ _ nofun heq),
    fun heq => hmixed (hcells _ _ nofun heq), Nat.not_lt.mp fun hlow => ?_⟩
  obtain ⟨m, hm, hdigest⟩ := hsingle _ _ hlow rfl
  exact hmixed (.inr ⟨m, List.mem_append_left _ hm, hdigest⟩)

end Bindings

end SlotLedger
