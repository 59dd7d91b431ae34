/-!
# Sorted tables

A finite map held as a list of entries in strictly ascending key order.  The order makes the
representation canonical: two tables with the same look-ups are equal, which is what lets
fingerprints and image files be compared byte for byte.

## Main definitions

* `Table κ ν`: entries in ascending key order, each key once.
* `Table.get?`, `Table.insert`, `Table.erase`: look-up and the two updates.
* `Table.keys`, `Table.entries`: the contents in key order.

## Main results

* `get?_insert`, `get?_filter`, `get?_erase`: what each update does to look-up.
* `ext_get?`: tables with the same look-ups are equal.
-/

namespace SlotLedger

/-- A finite map from `κ` to `ν`, listed in strictly ascending key order. -/
structure Table (κ : Type) (ν : Type) [Ord κ] where
  /-- The entries, smallest key first. -/
  entries : List (κ × ν)
  /-- Every entry's key is below the keys of the entries after it. -/
  ascending : entries.Pairwise fun a b => compare a.1 b.1 = .lt

namespace Table

variable {κ ν : Type} [Ord κ]

/-- The table without entries. -/
def empty : Table κ ν := ⟨[], .nil⟩

/-- The value of the entry with the given key, in a list of entries. -/
def find (k : κ) : List (κ × ν) → Option ν
  | [] => none
  | (a, v) :: rest =>
    match compare k a with
    | .eq => some v
    | .lt => none
    | .gt => find k rest

/-- Put a value at a key's place in an ascending list, replacing the value that is there. -/
def place (k : κ) (v : ν) : List (κ × ν) → List (κ × ν)
  | [] => [(k, v)]
  | (a, w) :: rest =>
    match compare k a with
    | .lt => (k, v) :: (a, w) :: rest
    | .eq => (k, v) :: rest
    | .gt => (a, w) :: place k v rest

/-- Every entry of `place k v l` is the new one or an entry of `l`. -/
theorem mem_place {k : κ} {v : ν} {l : List (κ × ν)} {e : κ × ν} (h : e ∈ place k v l) :
    e = (k, v) ∨ e ∈ l := by
  induction l with
  | nil => simpa [place] using h
  | cons head rest ih =>
    obtain ⟨a, w⟩ := head
    unfold place at h
    split at h
    · simpa using h
    · rcases List.mem_cons.mp h with rfl | h
      · exact .inl rfl
      · exact .inr (List.mem_cons_of_mem _ h)
    · rcases List.mem_cons.mp h with rfl | h
      · exact .inr (List.mem_cons_self ..)
      · exact (ih h).imp id (List.mem_cons_of_mem _)

section Ordered

variable [Std.TransOrd κ] [Std.LawfulEqOrd κ]

/-- Placing an entry keeps the keys ascending. -/
theorem pairwise_place (k : κ) (v : ν) {l : List (κ × ν)}
    (h : l.Pairwise fun a b => compare a.1 b.1 = .lt) :
    (place k v l).Pairwise fun a b => compare a.1 b.1 = .lt := by
  induction l with
  | nil => simp [place]
  | cons head rest ih =>
    obtain ⟨a, w⟩ := head
    obtain ⟨below, tail⟩ := List.pairwise_cons.mp h
    unfold place
    split
    · rename_i lt
      refine List.pairwise_cons.mpr ⟨fun e he => ?_, h⟩
      rcases List.mem_cons.mp he with rfl | he
      · exact lt
      · exact Std.TransCmp.lt_trans lt (below e he)
    · rename_i eq
      obtain rfl := Std.LawfulEqCmp.eq_of_compare eq
      exact List.pairwise_cons.mpr ⟨below, tail⟩
    · rename_i gt
      refine List.pairwise_cons.mpr ⟨fun e he => ?_, ih tail⟩
      rcases mem_place he with rfl | he
      · exact Std.OrientedCmp.lt_of_gt gt
      · exact below e he

/-- The table with the entry `(k, v)` in place of any entry of that key. -/
def insert (t : Table κ ν) (k : κ) (v : ν) : Table κ ν :=
  ⟨place k v t.entries, pairwise_place k v t.ascending⟩

end Ordered

/-- The value at a key, if the table has one. -/
def get? (t : Table κ ν) (k : κ) : Option ν := find k t.entries

/-- The table without the entries that fail a test. -/
def filter (t : Table κ ν) (keep : κ × ν → Bool) : Table κ ν :=
  ⟨t.entries.filter keep, t.ascending.filter _⟩

/-- The table without the entry of the given key. -/
def erase (t : Table κ ν) (k : κ) : Table κ ν :=
  t.filter fun e => compare e.1 k != .eq

/-- The keys in ascending order. -/
def keys (t : Table κ ν) : List κ := t.entries.map Prod.fst

/-- The number of entries. -/
def size (t : Table κ ν) : Nat := t.entries.length

/-- Whether the table has no entry. -/
def isEmpty (t : Table κ ν) : Bool := t.entries.isEmpty

/-- A table is determined by its entries. -/
theorem ext {s t : Table κ ν} (h : s.entries = t.entries) : s = t := by
  cases s; cases t; simp_all

@[simp] theorem get?_empty (k : κ) : (empty : Table κ ν).get? k = none := rfl

/-! ## Look-up -/

section Lookup

variable [Std.TransOrd κ] [Std.LawfulEqOrd κ]

/-- Look-up finds the entries of an ascending list and nothing else. -/
theorem find_eq_some_iff {k : κ} {v : ν} {l : List (κ × ν)}
    (h : l.Pairwise fun a b => compare a.1 b.1 = .lt) : find k l = some v ↔ (k, v) ∈ l := by
  induction l with
  | nil => simp [find]
  | cons head rest ih =>
    obtain ⟨a, w⟩ := head
    obtain ⟨below, tail⟩ := List.pairwise_cons.mp h
    have notBelow : compare k a = .lt → (k, v) ∉ rest := fun lt member => by
      have := Std.TransCmp.lt_trans lt (below _ member)
      simp at this
    unfold find
    split
    · rename_i eq
      obtain rfl := Std.LawfulEqCmp.eq_of_compare eq
      have : (k, v) ∉ rest := fun member => by
        have := below _ member
        simp at this
      simp [this, eq_comm]
    · rename_i lt
      have : k ≠ a := fun e => by simp [e] at lt
      simp [this, notBelow lt]
    · rename_i gt
      have : k ≠ a := fun e => by simp [e] at gt
      simp [this, ih tail]

/-- Look-up finds the entries of a table and nothing else. -/
theorem get?_eq_some_iff {t : Table κ ν} {k : κ} {v : ν} :
    t.get? k = some v ↔ (k, v) ∈ t.entries := find_eq_some_iff t.ascending

/-- Placing an entry changes what is found at its key only. -/
theorem find_place (k k' : κ) (v : ν) {l : List (κ × ν)}
    (h : l.Pairwise fun a b => compare a.1 b.1 = .lt) :
    find k' (place k v l) = if compare k' k = .eq then some v else find k' l := by
  induction l with
  | nil =>
    cases order : compare k' k <;> simp [place, find, order]
  | cons head rest ih =>
    obtain ⟨a, w⟩ := head
    obtain ⟨below, tail⟩ := List.pairwise_cons.mp h
    cases order : compare k a with
    | lt =>
      cases order' : compare k' k with
      | lt => simp [place, find, order, order', Std.TransCmp.lt_trans order' order]
      | eq => simp [place, find, order, order']
      | gt => simp [place, order, find, order']
    | eq =>
      obtain rfl := Std.LawfulEqCmp.eq_of_compare order
      cases order' : compare k' k <;> simp [place, find, order']
    | gt =>
      have step : place k v ((a, w) :: rest) = (a, w) :: place k v rest := by simp [place, order]
      rw [step]
      cases order' : compare k' a with
      | lt =>
        have : compare k' k = .lt :=
          Std.TransCmp.lt_trans order' (Std.OrientedCmp.lt_of_gt order)
        simp [find, order', this]
      | eq =>
        obtain rfl := Std.LawfulEqCmp.eq_of_compare order'
        have : compare k' k = .lt := Std.OrientedCmp.lt_of_gt order
        simp [find, this]
      | gt => simp [find, order', ih tail]

/-- An insertion changes what is found at its key only. -/
theorem get?_insert (t : Table κ ν) (k k' : κ) (v : ν) :
    (t.insert k v).get? k' = if compare k' k = .eq then some v else t.get? k' :=
  find_place k k' v t.ascending

@[simp] theorem get?_insert_self (t : Table κ ν) (k : κ) (v : ν) :
    (t.insert k v).get? k = some v := by simp [get?_insert]

/-- A filtered table has the values whose entries pass the test. -/
theorem get?_filter (t : Table κ ν) (keep : κ × ν → Bool) (k : κ) :
    (t.filter keep).get? k = (t.get? k).filter fun v => keep (k, v) := by
  ext v
  simp [get?_eq_some_iff, filter, Option.filter_eq_some_iff]

/-- An erasure changes what is found at its key only. -/
theorem get?_erase (t : Table κ ν) (k k' : κ) :
    (t.erase k).get? k' = if compare k' k = .eq then none else t.get? k' := by
  rw [erase, get?_filter]
  by_cases same : k' = k <;> cases t.get? k' <;> simp [Option.filter, same]

omit [Std.LawfulEqOrd κ] in
/-- Ascending lists with the same members are equal. -/
theorem entries_eq_of_mem_iff {l m : List (κ × ν)}
    (hl : l.Pairwise fun a b => compare a.1 b.1 = .lt)
    (hm : m.Pairwise fun a b => compare a.1 b.1 = .lt) (same : ∀ e, e ∈ l ↔ e ∈ m) : l = m := by
  induction l generalizing m with
  | nil =>
    cases m with
    | nil => rfl
    | cons head _ => simpa using same head
  | cons a l ih =>
    cases m with
    | nil => simpa using same a
    | cons b m =>
      obtain ⟨belowA, tailA⟩ := List.pairwise_cons.mp hl
      obtain ⟨belowB, tailB⟩ := List.pairwise_cons.mp hm
      have irrefl (e : κ × ν) : compare e.1 e.1 ≠ .lt := by simp
      have heads : a = b := by
        rcases List.mem_cons.mp ((same a).mp (List.mem_cons_self ..)) with h | inM
        · exact h
        · rcases List.mem_cons.mp ((same b).mpr (List.mem_cons_self ..)) with h | inL
          · exact h.symm
          · exact absurd (Std.TransCmp.lt_trans (belowA _ inL) (belowB _ inM)) (irrefl a)
      subst heads
      congr 1
      refine ih tailA tailB fun e => ⟨fun inL => ?_, fun inM => ?_⟩
      · rcases List.mem_cons.mp ((same e).mp (List.mem_cons_of_mem _ inL)) with rfl | h
        · exact absurd (belowA _ inL) (irrefl e)
        · exact h
      · rcases List.mem_cons.mp ((same e).mpr (List.mem_cons_of_mem _ inM)) with rfl | h
        · exact absurd (belowB _ inM) (irrefl e)
        · exact h

/-- Tables with the same look-ups are equal. -/
theorem ext_get? {s t : Table κ ν} (h : ∀ k, s.get? k = t.get? k) : s = t := by
  refine ext (entries_eq_of_mem_iff s.ascending t.ascending fun e => ?_)
  rw [← get?_eq_some_iff, ← get?_eq_some_iff, h]

end Lookup

end Table

end SlotLedger
