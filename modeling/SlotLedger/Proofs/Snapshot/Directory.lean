import SlotLedger.Proofs.Disk.Paths
import SlotLedger.Proofs.Outcome
import SlotLedger.Snapshot.Directory

/-!
# Writing snapshots

A snapshot goes to a file of its own.  Writing it makes directories and this file, and no file with
a name that no snapshot has changes.

## Main results

* `Snapshot.isPlain_fileName`: the name of a snapshot's file
* `Snapshot.content?_save`: what another file holds after a snapshot was written
* `Snapshot.content?_of_save`: what the file of the snapshot holds
-/

namespace SlotLedger.Snapshot

theorem isDigit_of_mem_sixDigits {n : Nat} {c : Char} (h : c ∈ sixDigits n) : c.isDigit = true := by
  rcases List.mem_append.mp h with h | h
  · rw [List.eq_of_mem_replicate h]
    rfl
  · exact Nat.isDigit_of_mem_toDigits (by decide) (by decide) h

theorem toList_fileName (n : UInt64) :
    (fileName n).toList = nameStart.toList ++ sixDigits n.toNat ++ nameEnd.toList := by
  simp [fileName]

/-- The name starts as every name of a snapshot's file. -/
theorem head?_fileName (n : UInt64) : (fileName n).toList.head? = some 's' := by
  rw [toList_fileName]
  rfl

theorem isPlain_fileName (n : UInt64) : Path.IsPlain (fileName n) where
  no_slash := by
    rw [toList_fileName, List.mem_append, List.mem_append]
    rintro ((h | h) | h)
    · exact absurd h (by decide)
    · exact absurd (isDigit_of_mem_sixDigits h) (by decide)
    · exact absurd h (by decide)
  not_here := by
    have hhead := head?_fileName n
    rw [Path.isHere, Bool.or_eq_false_iff, beq_eq_false_iff_ne, beq_eq_false_iff_ne]
    constructor <;> intro heq <;> rw [heq] at hhead <;> exact absurd hhead (by decide)
  not_above := by
    have hhead := head?_fileName n
    intro heq
    rw [heq] at hhead
    exact absurd hhead (by decide)

/-- **A file keeps what it holds** while a snapshot is written, if its name is not a snapshot's. -/
theorem content?_save {disk : Disk} {path : Path} {text : String} {content : Bytes}
    (hplain : Path.IsPlain text) (hname : ∀ n, fileName n ≠ text)
    (h : disk.content? (path.join text) = some content) (directory : Path) (n : UInt64)
    (l : Ledger) : (save disk directory n l).2.content? (path.join text) = some content := by
  rw [save]
  obtain ⟨ok, made, hmake⟩ : ∃ ok made, disk.makeDirectories directory = (ok, made) :=
    ⟨_, _, rfl⟩
  have hmade : made.content? (path.join text) = some content := by
    have hkept := Disk.content?_makeDirectories h directory
    rwa [hmake] at hkept
  rw [hmake]
  cases ok with
  | false => exact hmade
  | true =>
    dsimp only
    cases hwrite : made.writeText? (directory.join (fileName n)) (capture n l).toJson.compact with
    | none => exact hmade
    | some written =>
      obtain ⟨place, hplace, -⟩ := Option.bind_eq_some_iff.mp hmade
      have hother := Disk.place?_join_ne hplain (isPlain_fileName n) (hname n).symm hplace
        directory
      have hcontent := Disk.content?_of_write? hwrite (path.join text)
      rw [hplace, if_neg (Ne.symm hother)] at hcontent
      exact hcontent.trans hmade

section Save

variable {disk disk' : Disk} {directory path : Path} {n : UInt64} {l : Ledger}
  (h : save disk directory n l = (.ok path, disk'))

include h

/-- What is written as a snapshot is in its file. -/
theorem content?_of_save :
    path = directory.join (fileName n) ∧
      disk'.content? path = some (Bytes.utf8 (capture n l).toJson.compact) := by
  rw [save] at h
  split at h
  · cases h
  rename_i made hmade
  dsimp only at h
  cases hwrite : made.writeText? (directory.join (fileName n)) (capture n l).toJson.compact with
  | none =>
    rw [hwrite] at h
    cases h
  | some written =>
    rw [hwrite] at h
    cases h
    exact ⟨rfl, Disk.content?_of_write?_self hwrite⟩

/-- What is written as a snapshot is read back. -/
theorem readText?_of_save (hread : disk'.canRead path = true) :
    path = directory.join (fileName n) ∧
      disk'.readText? path = some (capture n l).toJson.compact := by
  obtain ⟨hpath, hcontent⟩ := content?_of_save h
  refine ⟨hpath, ?_⟩
  rw [Disk.readText?, Disk.read?, if_pos hread, hcontent, Option.bind_some, Bytes.utf8?_utf8]

end Save

/-- The latest snapshot is the one in the file that is listed last. -/
theorem ofText?_of_latest {disk : Disk} {directory : Path} {numbers : List UInt64} {n : UInt64}
    {text : String} {s : Snapshot} (hlist : list disk directory = .ok numbers)
    (hlast : numbers.getLast? = some n)
    (htext : disk.readText? (directory.join (fileName n)) = some text)
    (h : latest disk directory = .ok (some s)) : ofText? text = some s := by
  obtain ⟨numbers', hlist', hlatest⟩ := bind_eq_ok_iff.mp h
  obtain rfl := Except.ok.inj (hlist.symm.trans hlist')
  rw [hlast] at hlatest
  change load disk directory n = _ at hlatest
  rw [load] at hlatest
  split at hlatest
  · rw [htext] at hlatest
    cases htext : ofText? text with
    | none =>
      dsimp only at hlatest
      rw [htext] at hlatest
      cases hlatest
    | some s' =>
      dsimp only at hlatest
      rw [htext] at hlatest
      cases hlatest
      rfl
  · cases hlatest

end SlotLedger.Snapshot
