import Mathlib.Data.String.Basic
import SlotLedger.Disk

/-!
# Paths and directories on a disk

A path that was joined from a directory and a plain name ends in this name wherever it leads, so
two of them with different names never lead to the same place.  Making directories adds to what is
there and takes nothing away: a path that leads somewhere still leads there, and a file that is
there still holds what it held.

## Main definitions

* `Path.IsPlain`: a name that stands for an entry of a directory
* `Directory.Within`: what is in one tree is in the other

## Main results

* `Disk.getLast?_of_place?_join`: where a joined path leads
* `Disk.content?_makeDirectories`: files keep what they hold while directories are made
-/

namespace SlotLedger

namespace Path

/-- The text is the name of an entry: no slash in it, and not the name of a directory seen from
inside. -/
structure IsPlain (text : String) : Prop where
  no_slash : '/' ∉ text.toList
  not_here : isHere text = false
  not_above : text ≠ above

theorem names_eq (p : Path) : p.names = (p.text.toList.splitOn '/').map String.ofList := by
  rw [names, String.splitToList_of_valid, List.splitOn_eq_splitOnP]

/-- The last name of a joined path is what was joined. -/
theorem name_join {text : String} (h : '/' ∉ text.toList) (p : Path) :
    (p.join text).name = text := by
  have hsingle : text.toList.splitOnP (· == '/') = [text.toList] :=
    List.splitOnP_eq_singleton fun c hc => beq_eq_false_iff_ne.mpr fun heq => h (heq ▸ hc)
  -- Behind the last slash stands what was joined, whatever stands before it.
  have hafter : ∀ q : Path, ∀ front : List Char, q.text.toList = front ++ '/' :: text.toList →
      q.name = text := by
    intro q front hq
    rw [name, names_eq, hq, List.splitOn_eq_splitOnP, List.splitOnP_append_cons _ _ (by simp),
      hsingle]
    simp
  have hrelative : text.toList.head? ≠ some '/' :=
    fun hhead => h (List.mem_of_mem_head? hhead)
  rw [join, if_neg (by simpa using hrelative)]
  split
  · rename_i hend
    rcases List.eq_nil_or_concat p.text.toList with hnil | ⟨front, last, hconcat⟩
    · rw [name, names_eq, List.splitOn_eq_splitOnP, String.toList_append, hnil, List.nil_append,
        hsingle]
      simp
    · have hlast : last = '/' := by simpa [hconcat] using hend
      apply hafter _ front
      rw [String.toList_append, hconcat, hlast]
      simp
  · apply hafter _ p.text.toList
    simp

end Path

/-! ## More in a tree -/

/-- Whatever was at a place is there: a file with its content, or a directory. -/
def Node.Kept : Option Node → Option Node → Prop
  | none, _ => True
  | some (.file content), new => new = some (.file content)
  | some (.directory _), new => new.any Node.isDirectory = true

theorem Node.Kept.refl (node : Option Node) : Kept node node := by
  rcases node with _ | _ | _
  · trivial
  · rfl
  · rfl

theorem Node.Kept.trans {first second third : Option Node} (h : Kept first second)
    (h' : Kept second third) : Kept first third := by
  rcases first with _ | content | below
  · trivial
  · obtain rfl : second = some (.file content) := h
    exact h'
  · rcases second with _ | _ | _
    · cases h
    · cases h
    · exact h'

namespace Directory

/-- What is in the one tree is in the other. -/
def Within (d e : Directory) : Prop := ∀ place, Node.Kept (d.at? place) (e.at? place)

theorem Within.refl (d : Directory) : d.Within d := fun _ => .refl _

theorem Within.trans {d e f : Directory} (hde : d.Within e) (hef : e.Within f) : d.Within f :=
  fun place => (hde place).trans (hef place)

theorem Within.fileAt? {d e : Directory} (h : d.Within e) {place : Place} {content : Bytes}
    (hfile : d.fileAt? place = some content) : e.fileAt? place = some content := by
  have hkept := h place
  unfold Directory.fileAt? at hfile ⊢
  split at hfile
  · rename_i heq
    rw [heq] at hkept
    rw [hkept]
    exact hfile
  · cases hfile

theorem Within.hasDirectoryAt {d e : Directory} (h : d.Within e) {place : Place}
    (hdirectory : d.hasDirectoryAt place = true) : e.hasDirectoryAt place = true := by
  have hkept := h place
  unfold Directory.hasDirectoryAt at hdirectory ⊢
  obtain ⟨_ | _, heq, hnode⟩ := (Option.any_eq_true _ _).mp hdirectory
  · cases hnode
  · rwa [heq] at hkept

/-- **What is put where nothing was** adds to the tree. -/
theorem within_putAt {d : Directory} {place : Place} (h : d.at? place = none) (node : Node) :
    d.Within (d.putAt node place) := by
  induction place generalizing d with
  | nil => exact .refl d
  | cons name rest ih =>
    rintro (_ | ⟨name', rest'⟩)
    · rfl
    by_cases hsame : name = name'
    · subst hsame
      rw [at?_cons] at h
      cases rest with
      | nil =>
        -- The name is free, so nothing is lost.
        cases hfind : d.find? name with
        | none =>
          rw [at?_cons, hfind]
          trivial
        | some old => cases old <;> simp [hfind, at?] at h
      | cons next rest =>
        cases hfind : d.find? name with
        | none => simp [putAt, hfind, Node.Kept.refl]
        | some old =>
          cases old with
          | file content => simp [putAt, hfind, Node.Kept.refl]
          | directory below =>
            rw [hfind] at h
            simpa [putAt, at?_cons, find?_put, hfind] using ih h rest'
    · cases rest with
      | nil => simp [putAt, at?_cons, find?_put, hsame, Node.Kept.refl]
      | cons next rest =>
        rw [putAt]
        · split <;> simp [at?_cons, find?_put, hsame, Node.Kept.refl]
        · simp

end Directory

/-! ## Making directories -/

namespace Disk

/-- A way that leads somewhere still does when there is more in the tree. -/
theorem walk_of_within {d e : Directory} (h : d.Within e) {here place : Place}
    {names : List String} (hwalk : walk d here names = some place) :
    walk e here names = some place := by
  -- Each directory on the way is in the larger tree too.
  induction names generalizing here with
  | nil => exact hwalk
  | cons name rest ih =>
    rw [walk] at hwalk ⊢
    split
    · rw [if_pos ‹_›] at hwalk
      exact ih hwalk
    rw [if_neg ‹_›] at hwalk
    split
    · rw [if_pos ‹_›] at hwalk
      exact ih hwalk
    rw [if_neg ‹_›] at hwalk
    split at hwalk
    · rw [if_pos (h.hasDirectoryAt ‹_›)]
      exact ih hwalk
    · cases hwalk

theorem place?_of_within {c d : Disk} (hworking : c.working = d.working)
    (hroot : c.root.Within d.root) {path : Path} {place : Place}
    (h : c.place? path = some place) : d.place? path = some place := by
  have hstart : c.start path = d.start path := by rw [start, start, hworking]
  rw [place?] at h ⊢
  split
  · rw [if_pos ‹_›] at h
    cases h
  rw [if_neg ‹_›] at h
  split
  · rw [if_pos ‹_›, hstart] at h
    exact walk_of_within hroot h
  · rw [if_neg ‹_›, hstart] at h
    obtain ⟨above, hwalk, hplace⟩ := Option.map_eq_some_iff.mp h
    rw [walk_of_within hroot hwalk, ← hplace]
    rfl

theorem content?_of_within {c d : Disk} (hworking : c.working = d.working)
    (hroot : c.root.Within d.root) {path : Path} {content : Bytes}
    (h : c.content? path = some content) : d.content? path = some content := by
  obtain ⟨place, hplace, hfile⟩ := Option.bind_eq_some_iff.mp h
  rw [content?, place?_of_within hworking hroot hplace]
  exact hroot.fileAt? hfile

/-- Making directories adds to the tree, also where it fails halfway. -/
theorem within_makeBelow (root : Directory) (here : Place) (names : List String) :
    root.Within (makeBelow root here names).2 := by
  -- Each name adds a directory where nothing was, or nothing at all.
  induction names generalizing root here with
  | nil => exact .refl root
  | cons name rest ih =>
    rw [makeBelow]
    split
    · exact ih root here
    split
    · exact ih root here.dropLast
    dsimp only
    split
    · exact ih root _
    · exact .refl root
    · rename_i hfree
      split
      · exact (Directory.within_putAt hfree _).trans (ih _ _)
      · exact .refl root

/-- Making directories changes nothing but the tree. -/
theorem makeDirectories_eq (d : Disk) (path : Path) :
    ∃ root, d.root.Within root ∧ (d.makeDirectories path).2 = { d with root } := by
  rw [makeDirectories]
  split
  · exact ⟨d.root, .refl _, rfl⟩
  split
  · exact ⟨_, within_makeBelow d.root (d.start path) path.names, rfl⟩
  · exact ⟨d.root, .refl _, rfl⟩

/-- **Files keep what they hold while directories are made.** -/
theorem content?_makeDirectories {d : Disk} {path : Path} {content : Bytes}
    (h : d.content? path = some content) (path' : Path) :
    (d.makeDirectories path').2.content? path = some content := by
  obtain ⟨root, hwithin, hmake⟩ := d.makeDirectories_eq path'
  rw [hmake]
  exact content?_of_within (c := d) (d := { d with root }) rfl hwithin h

/-- Where a file is, a path leads to something. -/
theorem has_of_content? {d : Disk} {path : Path} {content : Bytes}
    (h : d.content? path = some content) : d.has path = true := by
  obtain ⟨place, hplace, hfile⟩ := Option.bind_eq_some_iff.mp h
  rw [has, node?, hplace]
  unfold Directory.fileAt? at hfile
  split at hfile
  · rename_i heq
    simp [heq]
  · cases hfile

/-- Where nothing is, no octets are. -/
theorem getD_content?_of_not_has {d : Disk} {path : Path} (h : d.has path = false) :
    (d.content? path).getD [] = [] := by
  cases hcontent : d.content? path with
  | none => rfl
  | some content =>
    rw [has_of_content? hcontent] at h
    cases h

/-! ## Joined paths -/

/-- **A joined path ends in the name that was joined**, wherever it leads. -/
theorem getLast?_of_place?_join {d : Disk} {path : Path} {text : String}
    (hplain : Path.IsPlain text) {place : Place} (h : d.place? (path.join text) = some place) :
    place.getLast? = some text := by
  have hname := Path.name_join hplain.no_slash path
  rw [place?, hname] at h
  split at h
  · cases h
  rw [if_neg (by simp [hplain.not_here, hplain.not_above])] at h
  obtain ⟨above, -, rfl⟩ := Option.map_eq_some_iff.mp h
  exact List.getLast?_concat

/-- Joined paths with different names do not lead to the same place. -/
theorem place?_join_ne {d : Disk} {path : Path} {text text' : String} {place : Place}
    (hplain : Path.IsPlain text) (hplain' : Path.IsPlain text') (hne : text ≠ text')
    (h : d.place? (path.join text) = some place) (path' : Path) :
    d.place? (path'.join text') ≠ some place := by
  intro h'
  have hlast := getLast?_of_place?_join hplain h
  rw [getLast?_of_place?_join hplain' h'] at hlast
  exact hne (Option.some.inj hlast).symm

end Disk

end SlotLedger
