import Mathlib.Data.Set.Card
import SlotLedger.Storage

/-!
# Canonical storage

Storage forgets how it came about.  Its words are the slots that do not read zero, each with what it
reads and in ascending order, so that storages which read alike are equal and have the same words,
whatever calls led to them.

## Main definitions

* `StorageCall`: a call that changes storage
* `StorageCall.reading`: what a slot reads after a call
* `Storage.built`: storage after calls from the empty one

## Main results

* `Storage.load_apply`: storage after a write set
* `Storage.mem_words_iff`, `Storage.pairwise_words`: the words of storage
* `Storage.countP_words`: words are counted by the slots that hold them
* `Storage.ofWords_words`, `Storage.words_inj`: the words make up the storage
* `Storage.load_built`, `Storage.canonical_built`: storage after calls
-/

namespace SlotLedger

/-! ## Tables -/

namespace Table

section Keys

variable {κ ν : Type} [Ord κ] [Std.TransOrd κ] [Std.LawfulEqOrd κ]

/-- The keys are those at which something is found. -/
theorem mem_keys_iff {t : Table κ ν} {k : κ} : k ∈ t.keys ↔ ∃ v, t.get? k = some v := by
  simp only [keys, List.mem_map, get?_eq_some_iff]
  constructor
  · rintro ⟨⟨k', v⟩, hmem, rfl⟩
    exact ⟨v, hmem⟩
  · rintro ⟨v, hmem⟩
    exact ⟨(k, v), hmem, rfl⟩

omit [Std.LawfulEqOrd κ] in
/-- No key occurs twice. -/
theorem nodup_keys (t : Table κ ν) : t.keys.Nodup := by
  refine List.pairwise_map.mpr (t.ascending.imp fun hlt heq => ?_)
  rw [heq] at hlt
  simp at hlt

end Keys

/-- The keys of slots or of accounts ascend as numbers. -/
theorem pairwise_lt_entries {width : Nat} {ν : Type} (t : Table (BitVec width) ν) :
    t.entries.Pairwise fun e e' => e.1 < e'.1 :=
  t.ascending.imp compareOfLessAndEq_eq_lt.mp

end Table

namespace Storage

/-! ## Write sets -/

theorem load_foldl_store {entries : List (Slot × Word)}
    (h : entries.Pairwise fun a b => compare a.1 b.1 = .lt) (s : Storage) (slot : Slot) :
    (entries.foldl (fun s e => s.store e.1 e.2) s).load slot =
      (Table.find slot entries).getD (s.load slot) := by
  induction entries generalizing s with
  | nil => rfl
  | cons head rest ih =>
    obtain ⟨k, v⟩ := head
    obtain ⟨hbelow, hrest⟩ := List.pairwise_cons.mp h
    -- A key at or below the first one occurs nowhere after it.
    have hnone : compare slot k ≠ .gt → Table.find slot rest = none := by
      intro hle
      cases hw : Table.find slot rest with
      | none => rfl
      | some w =>
        have hlt := hbelow _ ((Table.find_eq_some_iff hrest).mp hw)
        exact absurd (Std.OrientedCmp.gt_of_lt hlt) hle
    rw [List.foldl_cons, ih hrest, load_store, Table.find]
    cases horder : compare slot k with
    | lt =>
      have hne : slot ≠ k := fun he => by simp [he] at horder
      rw [hnone (by simp [horder]), if_neg hne]
    | eq =>
      obtain rfl := Std.LawfulEqCmp.eq_of_compare horder
      rw [hnone (by simp), if_pos rfl]
      rfl
    | gt =>
      have hne : slot ≠ k := fun he => by simp [he] at horder
      rw [if_neg hne]

/-- A slot reads the word written to it, and where none was written as before. -/
theorem load_apply (s : Storage) (writes : WriteSet) (slot : Slot) :
    (s.apply writes).load slot = (writes.get? slot).getD (s.load slot) :=
  load_foldl_store writes.ascending s slot

/-! ## Words -/

/-- **The words of storage** are what the slots that do not read zero read. -/
theorem mem_words_iff {s : Storage} {w : StorageWord} :
    w ∈ s.words ↔ w.value ≠ 0 ∧ s.load w.slot = w.value := by
  obtain ⟨slot, value⟩ := w
  have hentry : ⟨slot, value⟩ ∈ s.words ↔ s.table.get? slot = some value := by
    rw [Table.get?_eq_some_iff, words, List.mem_map]
    constructor
    · rintro ⟨e, he, heq⟩
      cases heq
      exact he
    · intro he
      exact ⟨_, he, rfl⟩
  rw [hentry, load]
  cases hget : s.table.get? slot with
  | none =>
    constructor
    · intro h
      cases h
    · rintro ⟨hvalue, hzero⟩
      exact absurd hzero.symm hvalue
  | some stored =>
    have hstored : stored ≠ 0 := s.nonzero _ (Table.get?_eq_some_iff.mp hget)
    simp only [Option.some.injEq, Option.getD_some]
    constructor
    · rintro rfl
      exact ⟨hstored, rfl⟩
    · exact And.right

/-- What holds of all words holds of all slots that do not read zero. -/
theorem forall_mem_words {s : Storage} {P : Slot → Word → Prop} :
    (∀ w ∈ s.words, P w.slot w.value) ↔ ∀ slot, s.load slot ≠ 0 → P slot (s.load slot) := by
  constructor
  · intro h slot hslot
    exact h ⟨slot, s.load slot⟩ (mem_words_iff.mpr ⟨hslot, rfl⟩)
  · intro h w hw
    obtain ⟨hvalue, hload⟩ := mem_words_iff.mp hw
    rw [← hload] at hvalue ⊢
    exact h w.slot hvalue

/-- **The words ascend** in their slots. -/
theorem pairwise_words (s : Storage) : s.words.Pairwise fun v w => v.slot < w.slot :=
  List.pairwise_map.mpr s.table.pairwise_lt_entries

/-- **Words are counted** by the slots that hold them. -/
theorem countP_words (s : Storage) (p : StorageWord → Bool) :
    s.words.countP p = {slot | s.load slot ≠ 0 ∧ p ⟨slot, s.load slot⟩ = true}.ncard := by
  have hnodup : ((s.words.filter p).map StorageWord.slot).Nodup :=
    List.pairwise_map.mpr ((s.pairwise_words.filter p).imp BitVec.ne_of_lt)
  have hslots : {slot | s.load slot ≠ 0 ∧ p ⟨slot, s.load slot⟩ = true} =
      ((s.words.filter p).map StorageWord.slot).toFinset := by
    ext slot
    simp only [Set.mem_ofPred_eq, List.coe_toFinset, List.mem_map, List.mem_filter, mem_words_iff]
    constructor
    · rintro ⟨hslot, hp⟩
      exact ⟨_, ⟨⟨hslot, rfl⟩, hp⟩, rfl⟩
    · rintro ⟨w, ⟨⟨hvalue, hload⟩, hp⟩, rfl⟩
      rw [hload]
      exact ⟨hvalue, hp⟩
  rw [hslots, Set.ncard_coe_finset, List.toFinset_card_of_nodup hnodup, List.length_map,
    List.countP_eq_length_filter]

/-- The words of a storage make up the storage. -/
theorem ofWords_words (s : Storage) : ofWords s.words = s := by
  apply ext_load
  intro slot
  have hfold : ofWords s.words =
      s.table.entries.foldl (fun s e => s.store e.1 e.2) empty := List.foldl_map
  rw [hfold, load_foldl_store s.table.ascending, load_empty]
  rfl

/-- The words of storage tell what every slot reads. -/
theorem words_inj {x y : Storage} (h : x.words = y.words) : x = y := by
  rw [← x.ofWords_words, h, y.ofWords_words]

/-- A slot reads the last word that was stored there, and as before if none was. -/
theorem load_foldl_words (words : List StorageWord) (s : Storage) (slot : Slot) :
    (words.foldl (fun s w => s.store w.slot w.value) s).load slot =
      ((words.findRev? (·.slot == slot)).map (·.value)).getD (s.load slot) := by
  induction words generalizing s with
  | nil => rfl
  | cons w rest ih =>
    rw [List.foldl_cons, ih, load_store, List.findRev?]
    cases rest.findRev? (·.slot == slot) with
    | some later => rfl
    | none =>
      by_cases hslot : slot = w.slot
      · simp [hslot]
      · simp [hslot, Ne.symm hslot]

end Storage

/-! ## Calls -/

/-- A call that changes storage, the last kind by starting it anew. -/
inductive StorageCall where
  | store (slot : Slot) (value : Word)
  | apply (writes : WriteSet)
  | clearRange (start stop : Slot)
  | ofWords (words : List StorageWord)

namespace StorageCall

/-- Storage after a call. -/
def after (s : Storage) : StorageCall → Storage
  | .store slot value => s.store slot value
  | .apply writes => s.apply writes
  | .clearRange start stop => s.clearRange start stop
  | .ofWords words => .ofWords words

/-- What a slot reads after a call, from what it read before. -/
def reading (slot : Slot) (before : Word) : StorageCall → Word
  | .store slot' value => if slot = slot' then value else before
  | .apply writes => (writes.get? slot).getD before
  | .clearRange start stop => if start ≤ slot ∧ slot < stop then 0 else before
  | .ofWords words => ((words.findRev? (·.slot == slot)).map (·.value)).getD 0

theorem load_after (s : Storage) (c : StorageCall) (slot : Slot) :
    (after s c).load slot = c.reading slot (s.load slot) := by
  cases c with
  | store slot' value => exact s.load_store slot' slot value
  | apply writes => exact s.load_apply writes slot
  | clearRange start stop => exact s.load_clearRange start stop slot
  | ofWords words => exact Storage.load_foldl_words words .empty slot

end StorageCall

namespace Storage

/-- Storage after calls from the empty one. -/
def built (calls : List StorageCall) : Storage := calls.foldl StorageCall.after empty

/-- **A slot reads what the calls in their order make of zero.** -/
theorem load_built (calls : List StorageCall) (slot : Slot) :
    (built calls).load slot = calls.foldl (fun word c => c.reading slot word) 0 := by
  rw [built, ← load_empty slot]
  generalize empty = s
  induction calls generalizing s with
  | nil => rfl
  | cons c rest ih => rw [List.foldl_cons, ih, StorageCall.load_after, List.foldl_cons]

theorem ofWords_eq_built (words : List StorageWord) :
    ofWords words = built (words.map fun w => .store w.slot w.value) := by
  rw [built, List.foldl_map]
  rfl

/-- **Storage is canonical.**  Whatever calls built it, its words are what the slots that do not
read zero read, in ascending order, and they make up the storage again.  Two storages are equal, and
have the same words, exactly if they read alike, and what a slot reads is what the calls in their
order make of zero.  Clearing a range takes the words in it and no other, whatever the bounds, and
words are taken up as if they were stored in order, so that the last one at a slot counts. -/
theorem canonical_built (calls calls' : List StorageCall) :
    let s := built calls
    let t := built calls'
    (∀ slot, s.load slot = calls.foldl (fun word c => c.reading slot word) 0) ∧
      (∀ w, w ∈ s.words ↔ w.value ≠ 0 ∧ s.load w.slot = w.value) ∧
      s.words.Pairwise (fun v w => v.slot < w.slot) ∧
      (s = t ↔ ∀ slot, s.load slot = t.load slot) ∧
      (s.words = t.words ↔ ∀ slot, s.load slot = t.load slot) ∧
      ofWords s.words = s ∧
      (∀ start stop slot, (s.clearRange start stop).load slot =
        if start ≤ slot ∧ slot < stop then 0 else s.load slot) ∧
      ∀ words, ofWords words = built (words.map fun w => .store w.slot w.value) ∧
        ∀ slot, (ofWords words).load slot =
          ((words.findRev? (·.slot == slot)).map (·.value)).getD 0 := by
  intro s t
  have hsame : s = t ↔ ∀ slot, s.load slot = t.load slot :=
    ⟨fun h slot => h ▸ rfl, ext_load⟩
  have hwords : s.words = t.words ↔ s = t := ⟨words_inj, congrArg words⟩
  exact ⟨load_built calls, fun w => mem_words_iff, s.pairwise_words, hsame, hwords.trans hsame,
    s.ofWords_words, s.load_clearRange,
    fun words => ⟨ofWords_eq_built words, load_foldl_words words empty⟩⟩

end Storage

end SlotLedger
