import SlotLedger.Account
import SlotLedger.Role
import SlotLedger.Table

/-!
# Storage

The words of a ledger.  Storage knows slots and words and nothing of fields, types or versions.  A
slot that holds no word reads as zero, and storing zero takes the word away, so storages that read
alike are equal whatever their past.

## Main definitions

* `Storage`: the non-zero words in ascending slot order.
* `Storage.load`, `Storage.store`, `Storage.clearRange`, `Storage.apply`.
* `Storage.words`, `Storage.ofWords`: the words as a list and back.
* `mappingSlot`: where the entry of a mapping lives.

## Main results

* `Storage.load_store`, `Storage.load_clearRange`: what the two updates do to reading.
* `Storage.ext_load`: storages that read alike are equal.
-/

namespace SlotLedger

/-- A slot and the word at it. -/
structure StorageWord where
  slot : Slot
  value : Word
deriving DecidableEq

/-- The writes of a transaction: a word for every slot written. -/
abbrev WriteSet := Table Slot Word

/-- The words of a ledger. -/
structure Storage where
  /-- The words in ascending slot order. -/
  table : Table Slot Word
  /-- No word is zero. -/
  nonzero : ∀ e ∈ table.entries, e.2 ≠ 0

namespace Storage

/-- Storage is determined by its table. -/
theorem ext {s t : Storage} (h : s.table = t.table) : s = t := by
  cases s; cases t; simp_all

/-- Storage in which every slot reads zero. -/
def empty : Storage := ⟨.empty, by simp [Table.empty]⟩

/-- The word at a slot; zero where there is none. -/
def load (s : Storage) (slot : Slot) : Word := (s.table.get? slot).getD 0

/-- Storage without the words that fail a test. -/
def filter (s : Storage) (keep : Slot × Word → Bool) : Storage :=
  ⟨s.table.filter keep, fun e h => s.nonzero e (List.mem_filter.mp h).1⟩

/-- Write a word; zero takes the slot's word away. -/
def store (s : Storage) (slot : Slot) (value : Word) : Storage :=
  if h : value = 0 then
    ⟨s.table.erase slot, fun e he => s.nonzero e (List.mem_filter.mp he).1⟩
  else
    ⟨s.table.insert slot value, fun e he => by
      rcases Table.mem_place he with rfl | he
      · exact h
      · exact s.nonzero e he⟩

/-- Take away the words at the slots from `start` up to, but not including, `stop`. -/
def clearRange (s : Storage) (start stop : Slot) : Storage :=
  s.filter fun e => !(start ≤ e.1 && e.1 < stop)

/-- Carry out the writes of a transaction. -/
def apply (s : Storage) (writes : WriteSet) : Storage :=
  writes.entries.foldl (fun s e => s.store e.1 e.2) s

/-- The number of words. -/
def size (s : Storage) : Nat := s.table.size

/-- Whether every slot reads zero. -/
def isEmpty (s : Storage) : Bool := s.table.isEmpty

/-- The words in ascending slot order. -/
def words (s : Storage) : List StorageWord := s.table.entries.map fun e => ⟨e.1, e.2⟩

/-- The storage after storing the given words in order. -/
def ofWords (words : List StorageWord) : Storage :=
  words.foldl (fun s w => s.store w.slot w.value) empty

/-! ## Laws -/

@[simp] theorem load_empty (slot : Slot) : empty.load slot = 0 := rfl

/-- A slot reads the word that was stored last. -/
theorem load_store (s : Storage) (slot slot' : Slot) (value : Word) :
    (s.store slot value).load slot' = if slot' = slot then value else s.load slot' := by
  unfold store
  split
  · rename_i zero
    simp only [load, Table.get?_erase, Std.LawfulEqOrd.compare_eq_iff_eq]
    split <;> simp [zero]
  · simp only [load, Table.get?_insert, Std.LawfulEqOrd.compare_eq_iff_eq]
    split <;> simp

/-- A cleared slot reads zero; every other slot reads as before. -/
theorem load_clearRange (s : Storage) (start stop slot : Slot) :
    (s.clearRange start stop).load slot =
      if start ≤ slot ∧ slot < stop then 0 else s.load slot := by
  have test : (!(decide (start ≤ slot) && decide (slot < stop))) =
      !decide (start ≤ slot ∧ slot < stop) := by simp
  simp only [load, clearRange, filter, Table.get?_filter, test]
  cases s.table.get? slot <;> by_cases inside : start ≤ slot ∧ slot < stop <;>
    simp [Option.filter, inside]

/-- No slot's word is the zero word. -/
theorem get?_ne_zero (s : Storage) (slot : Slot) : s.table.get? slot ≠ some 0 := fun h =>
  s.nonzero _ (Table.get?_eq_some_iff.mp h) rfl

/-- What a slot reads tells whether it holds a word. -/
theorem get?_eq_of_load_eq {s t : Storage} {slot : Slot} (h : s.load slot = t.load slot) :
    s.table.get? slot = t.table.get? slot := by
  have hs := s.get?_ne_zero slot
  have ht := t.get?_ne_zero slot
  unfold load at h
  cases es : s.table.get? slot <;> cases et : t.table.get? slot <;> simp_all

/-- Storages that read alike are equal. -/
theorem ext_load {s t : Storage} (h : ∀ slot, s.load slot = t.load slot) : s = t :=
  ext (Table.ext_get? fun slot => get?_eq_of_load_eq (h slot))

instance : DecidableEq Storage := fun a b =>
  if h : a.table.entries = b.table.entries then
    .isTrue (ext (Table.ext h))
  else
    .isFalse fun e => h (e ▸ rfl)

end Storage

/-- The slot of the entry `key` of the mapping whose base slot is `base`: the digest of the key's
octets followed by the base's. -/
def mappingSlot (base : Slot) (key : Word) : Slot :=
  Word.ofBytes (Keccak.digest (Word.bytes key ++ Word.bytes base))

end SlotLedger
