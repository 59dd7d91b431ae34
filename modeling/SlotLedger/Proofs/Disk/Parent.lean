import SlotLedger.Proofs.Disk.Paths

/-!
# The directory of a file is there

The parent of a path is its names without the last one, and without those before it that name the
directory they stand in.  Where a path leads somewhere, there are directories for all of these, so
making the directory of the file makes nothing.

## Main results

* `Path.intercalate_names`, `Path.names_intercalate`: a path is the text of its names
* `Disk.makeDirectories_parent_join`: the directory of a joined path is there
-/

namespace SlotLedger

namespace Path

theorem intercalate_names (p : Path) : "/".intercalate p.names = p.text := by
  have hnames : p.names.map String.toList = p.text.toList.splitOn '/' := by
    rw [names_eq, List.map_map]
    exact List.map_id'' (fun _ => String.toList_ofList) _
  rw [← String.toList_inj, String.toList_intercalate, hnames]
  exact List.intercalate_splitOn '/'

theorem no_slash_of_mem_splitOnP {text part : List Char} (h : part ∈ text.splitOnP (· == '/')) :
    '/' ∉ part := by
  induction text generalizing part with
  | nil =>
    rw [List.splitOnP_nil, List.mem_singleton] at h
    rw [h]
    exact List.not_mem_nil
  | cons c text ih =>
    rw [List.splitOnP_cons_eq_if_modifyHead] at h
    split at h
    · rcases List.mem_cons.mp h with rfl | h
      · exact List.not_mem_nil
      · exact ih h
    · rename_i hc
      cases hparts : text.splitOnP (· == '/') with
      | nil => exact absurd hparts (List.splitOnP_ne_nil _ _)
      | cons first rest =>
        rw [hparts] at h ih
        rcases List.mem_cons.mp h with rfl | h
        · rw [List.mem_cons, not_or]
          exact ⟨fun heq => hc (by simp [← heq]), ih List.mem_cons_self⟩
        · exact ih (List.mem_cons_of_mem _ h)

theorem no_slash_of_mem_names {p : Path} {name : String} (h : name ∈ p.names) :
    '/' ∉ name.toList := by
  rw [names_eq, List.splitOn_eq_splitOnP] at h
  obtain ⟨part, hpart, rfl⟩ := List.mem_map.mp h
  rw [String.toList_ofList]
  exact no_slash_of_mem_splitOnP hpart

theorem names_intercalate {names : List String} (hne : names ≠ [])
    (h : ∀ name ∈ names, '/' ∉ name.toList) : (Path.mk ("/".intercalate names)).names = names := by
  have hslash : "/".toList = ['/'] := rfl
  rw [names_eq, String.toList_intercalate, hslash, List.splitOn_intercalate]
  · rw [List.map_map]
    exact List.map_id'' (fun _ => String.ofList_toList) _
  · intro part hpart
    obtain ⟨name, hname, rfl⟩ := List.mem_map.mp hpart
    exact h name hname
  · simpa using hne

theorem exists_trimHere_append (names : List String) :
    ∃ heres, trimHere names ++ heres = names := by
  refine ⟨(names.reverse.takeWhile isHere).reverse, ?_⟩
  rw [trimHere, ← List.reverse_append, List.takeWhile_append_dropWhile, List.reverse_reverse]

theorem trimHere_concat {name : String} (h : isHere name = false) (names : List String) :
    trimHere (names ++ [name]) = names ++ [name] := by
  simp [trimHere, h]

end Path

namespace Disk

theorem makeBelow_of_walk {root : Directory} {here place : Place} {names : List String}
    (h : walk root here names = some place) : makeBelow root here names = (true, root) := by
  induction names generalizing here with
  | nil => rfl
  | cons name rest ih =>
    rw [walk] at h
    rw [makeBelow]
    split
    · rw [if_pos ‹_›] at h
      exact ih h
    rw [if_neg ‹_›] at h
    split
    · rw [if_pos ‹_›] at h
      exact ih h
    rw [if_neg ‹_›] at h
    split at h
    · rename_i hdirectory
      obtain ⟨_ | below, hat, hnode⟩ := (Option.any_eq_true _ _).mp hdirectory
      · cases hnode
      · dsimp only
        rw [hat]
        exact ih h
    · cases h

theorem walk_append (root : Directory) (here : Place) (first later : List String) :
    walk root here (first ++ later) =
      (walk root here first).bind fun place => walk root place later := by
  induction first generalizing here with
  | nil => rfl
  | cons name rest ih =>
    rw [List.cons_append, walk, walk]
    split
    · exact ih here
    split
    · exact ih here.dropLast
    split
    · exact ih (here ++ [name])
    · rfl

theorem exists_walk_of_append {root : Directory} {here place : Place} {first later : List String}
    (h : walk root here (first ++ later) = some place) : ∃ p, walk root here first = some p := by
  rw [walk_append] at h
  obtain ⟨p, hp, -⟩ := Option.bind_eq_some_iff.mp h
  exact ⟨p, hp⟩

theorem makeDirectories_of_walk {d : Disk} {path : Path} {place : Place}
    (hvalid : path.isValid = true) (h : walk d.root (d.start path) path.names = some place) :
    d.makeDirectories path = (true, d) := by
  rw [makeDirectories]
  split
  · rfl
  · rw [makeBelow_of_walk h]

/-- The start of a valid path is a valid path, and starts where it does. -/
theorem isValid_of_append {d : Disk} {text more : String} (hne : text ≠ "")
    (h : (Path.mk (text ++ more)).isValid = true) :
    (Path.mk text).isValid = true ∧ d.start ⟨text⟩ = d.start ⟨text ++ more⟩ := by
  constructor
  · simp only [Path.isValid, Bool.and_eq_true, bne_iff_ne, decide_eq_true_eq, Bool.not_eq_true',
      String.utf8ByteSize_append, String.toList_append, List.contains_eq_mem,
      decide_eq_false_iff_not, List.mem_append, not_or] at h ⊢
    obtain ⟨⟨-, hsize⟩, hzero, -⟩ := h
    exact ⟨⟨hne, by omega⟩, hzero⟩
  · have hhead : (text ++ more).toList.head? = text.toList.head? := by
      rw [String.toList_append]
      cases hchars : text.toList with
      | nil => exact absurd (String.toList_eq_nil_iff.mp hchars) hne
      | cons c rest => rfl
    rw [start, start, Path.isAbsolute, Path.isAbsolute, hhead]

theorem makeDirectories_root (d : Disk) : d.makeDirectories ⟨"/"⟩ = (true, d) := by
  have hnames : (Path.mk "/").names = ["", ""] := by decide +kernel
  have hwalk : walk d.root (d.start ⟨"/"⟩) (Path.mk "/").names = some (d.start ⟨"/"⟩) := by
    rw [hnames]
    rfl
  exact makeDirectories_of_walk (by decide) hwalk

/-- Making the directory that the first names of a path lead to makes nothing. -/
theorem makeDirectories_first_names {d : Disk} {p : Path} {first later : List String}
    {place : Place} (hvalid : p.isValid = true) (hnames : p.names = first ++ later)
    (hfirst : first ≠ []) (hlater : later ≠ [])
    (hwalk : walk d.root (d.start p) first = some place) :
    d.makeDirectories ⟨"/".intercalate first⟩ = (true, d) := by
  by_cases hempty : "/".intercalate first = ""
  · rw [makeDirectories, if_pos hempty]
  have hslash : ∀ name ∈ first, '/' ∉ name.toList := by
    intro name hname
    exact Path.no_slash_of_mem_names (hnames ▸ List.mem_append_left later hname)
  have hwhole : p = ⟨"/".intercalate first ++ ("/" ++ "/".intercalate later)⟩ := by
    have htext := Path.intercalate_names p
    rw [hnames, String.intercalate_append_of_ne_nil hfirst hlater, String.append_assoc] at htext
    exact congrArg Path.mk htext.symm
  rw [hwhole] at hvalid hwalk
  obtain ⟨hvalid', hstart⟩ := isValid_of_append (d := d) hempty hvalid
  apply makeDirectories_of_walk hvalid'
  rw [hstart, Path.names_intercalate hfirst hslash]
  exact hwalk

/-- Where a joined path leads somewhere, there are directories for all names but the last. -/
theorem exists_walk_of_place?_join {d : Disk} {path : Path} {text : String}
    (hplain : Path.IsPlain text) {place : Place} (h : d.place? (path.join text) = some place) :
    (path.join text).isValid = true ∧ ∃ front above, (path.join text).names = front ++ [text] ∧
      walk d.root (d.start (path.join text)) front = some above := by
  have hname := Path.name_join hplain.no_slash path
  generalize path.join text = p at h hname ⊢
  rw [place?, hname] at h
  split at h
  · cases h
  rename_i hvalid
  rw [Bool.not_eq_true', Bool.not_eq_false] at hvalid
  rw [if_neg (by simp [hplain.not_here, hplain.not_above])] at h
  obtain ⟨above, hwalk, -⟩ := Option.map_eq_some_iff.mp h
  rcases List.eq_nil_or_concat p.names with hnil | ⟨front, last, hconcat⟩
  · rw [Path.name, hnil] at hname
    cases hplain.not_here.symm.trans (hname ▸ rfl : Path.isHere text = true)
  · rw [List.concat_eq_append] at hconcat
    rw [Path.name, hconcat, List.getLastD_concat] at hname
    rw [hconcat, List.dropLast_concat] at hwalk
    exact ⟨hvalid, front, above, hname ▸ hconcat, hwalk⟩

/-- **The directory of a joined path is there** where the path leads somewhere. -/
theorem makeDirectories_parent_join {d : Disk} {path : Path} {text : String}
    (hplain : Path.IsPlain text) {place : Place} (h : d.place? (path.join text) = some place) :
    d.makeDirectories (path.join text).parent = (true, d) := by
  obtain ⟨hvalid, front, above, hnames, hwalk⟩ := exists_walk_of_place?_join hplain h
  generalize path.join text = p at hvalid hnames hwalk ⊢
  rw [Path.parent, hnames]
  cases front with
  | nil =>
    -- A name alone stands in the working directory.
    have habsolute : p.isAbsolute = false := by
      have htext := Path.intercalate_names p
      rw [hnames, List.nil_append, String.intercalate_singleton] at htext
      rw [Path.isAbsolute, ← htext, beq_eq_false_iff_ne]
      exact fun hhead => hplain.no_slash (List.mem_of_mem_head? hhead)
    simp only [List.nil_append, habsolute]
    rfl
  | cons first rest =>
    obtain ⟨heres, hheres⟩ := Path.exists_trimHere_append rest
    have hfront : first :: rest = first :: Path.trimHere rest ++ heres := congrArg _ hheres.symm
    rw [hfront] at hnames hwalk
    rw [List.append_assoc] at hnames
    obtain ⟨there, hthere⟩ := exists_walk_of_append hwalk
    have hmade := makeDirectories_first_names hvalid hnames (List.cons_ne_nil _ _)
      (by simp) hthere
    have hrest : (Path.trimHere (rest ++ [text])).isEmpty = false := by
      rw [Path.trimHere_concat hplain.not_here]
      simp
    rw [List.cons_append]
    dsimp only
    rw [hrest, Path.trimHere_concat hplain.not_here, List.dropLast_concat]
    cases htrim : Path.trimHere rest with
    | cons next later =>
      rw [htrim] at hmade
      exact hmade
    | nil =>
      rw [htrim, String.intercalate_singleton] at hmade
      cases habsolute : p.isAbsolute with
      | false => exact hmade
      | true => exact makeDirectories_root d

end Disk

end SlotLedger
