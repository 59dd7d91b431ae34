import SlotLedger.Json.Printer
import SlotLedger.Json.Reader

/-!
# Printed documents are read back

The reader takes off the text what the printer put there and leaves the rest: the escapes of a
string, the digits of a number, the parts of an array or an object.  What it makes of a printed
document is that document, except where containers nest deeper than the reader follows them.

## Main definitions

* `Json.isPlain`: no numerals kept as written and no parts without a value
* `Json.toDepth`: the document without the containers that nest too deep
* `Json.IsEnd`: the text goes on as it may after a document

## Main results

* `Json.readString_stringTail`, `Json.readNumeral_toDigits`: strings and numbers
* `Json.readValue_chars`: documents, with anything after them
* `Json.parse?_compact`: the whole text of a document
-/

namespace SlotLedger.Json

/-! ## Strings -/

/-- What a character of a string is read as: a control character without an escape of its own is a
code unit. -/
def partOf (c : Char) : StringPart :=
  if c.toNat < 0x20 ∧ c ∉ ['\x08', '\x0c', '\n', '\r', '\t'] then .unit c.toNat else .char c

theorem codeUnit?_escapeDigit :
    ∀ n < 0x20, codeUnit? '0' '0' (escapeDigit (n / 16)) (escapeDigit n) = some n := by
  decide

theorem stringParts_escape {e c : Char} (h : simpleEscape? e = some c) (read : List StringPart)
    (rest : List Char) :
    stringParts read ('\\' :: e :: rest) = stringParts (.char c :: read) rest := by
  have hletter : e ≠ 'u' := by
    rintro rfl
    cases h
  rw [stringParts, h]
  · rfl
  · intro a b c d rest' heq
    exact absurd heq hletter

theorem stringParts_escapedChar (read : List StringPart) (c : Char) (rest : List Char) :
    stringParts read (escapedChar c ++ rest) = stringParts (partOf c :: read) rest := by
  -- The characters with an escape of one letter.
  by_cases hshort : c ∈ ['"', '\\', '\x08', '\x0c', '\n', '\r', '\t']
  · simp only [List.mem_cons, List.not_mem_nil, or_false] at hshort
    rcases hshort with rfl | rfl | rfl | rfl | rfl | rfl | rfl
    all_goals exact stringParts_escape rfl read rest
  simp only [List.mem_cons, List.not_mem_nil, or_false, not_or] at hshort
  obtain ⟨hquote, hbackslash, h8, hc, hn, hr, ht⟩ := hshort
  rw [escapedChar, if_neg hquote, if_neg hbackslash, if_neg h8, if_neg hc, if_neg hn, if_neg hr,
    if_neg ht]
  by_cases hcontrol : c.toNat < 0x20
  · have hpart : partOf c = .unit c.toNat := by simp [partOf, hcontrol, h8, hc, hn, hr, ht]
    rw [if_pos hcontrol, hpart]
    change stringParts read ('\\' :: 'u' :: '0' :: '0' :: _ :: _ :: rest) = _
    rw [stringParts, codeUnit?_escapeDigit _ hcontrol]
    rfl
  · have hpart : partOf c = .char c := by simp [partOf, hcontrol]
    rw [if_neg hcontrol, hpart, List.singleton_append, stringParts, if_neg (by simp_all)]
    · exact hquote
    · rintro a b c d rest' rfl
      exact absurd rfl hbackslash
    · rintro e rest' rfl
      exact absurd rfl hbackslash

theorem joinParts_unit {n : Nat} (h : n < 0xd800) (read : List Char) (parts : List StringPart) :
    joinParts read (.unit n :: parts) = joinParts (Char.ofNat n :: read) parts := by
  have hleading : isLeading n = false := by
    rw [isLeading, Bool.and_eq_false_iff, decide_eq_false_iff_not]
    exact .inl (by omega)
  have htrailing : isTrailing n = false := by
    rw [isTrailing, Bool.and_eq_false_iff, decide_eq_false_iff_not]
    exact .inl (by omega)
  rcases parts with _ | ⟨_ | m, rest⟩ <;> simp [joinParts, hleading, htrailing]

theorem joinParts_partOf (read : List Char) (c : Char) (parts : List StringPart) :
    joinParts read (partOf c :: parts) = joinParts (c :: read) parts := by
  rw [partOf]
  split
  · rename_i hunit
    rw [joinParts_unit (by omega), Char.ofNat_toNat]
  · rw [joinParts]

theorem stringParts_stringTail (read : List StringPart) (text rest : List Char) :
    stringParts read (stringTail text ++ rest) =
      some (read.reverse ++ text.map partOf, rest) := by
  induction text generalizing read with
  | nil =>
    rw [stringTail, List.flatMap_nil, List.nil_append, List.singleton_append, stringParts,
      List.map_nil, List.append_nil]
  | cons c text ih =>
    have hsplit : stringTail (c :: text) ++ rest = escapedChar c ++ (stringTail text ++ rest) := by
      simp [stringTail]
    rw [hsplit, stringParts_escapedChar, ih]
    simp

theorem joinParts_map_partOf (read chars : List Char) :
    joinParts read (chars.map partOf) = some (read.reverse ++ chars) := by
  induction chars generalizing read with
  | nil => rw [List.map_nil, joinParts, List.append_nil]
  | cons c chars ih =>
    rw [List.map_cons, joinParts_partOf, ih]
    simp

/-- **A string is read back**, and then what follows it. -/
theorem readString_stringTail (text : String) (rest : List Char) :
    readString (stringTail text.toList ++ rest) = some (some text, rest) := by
  rw [readString, stringParts_stringTail]
  simp [joinParts_map_partOf]

/-! ## Numbers -/

/-- The text goes on, if it does, with a comma or a closing bracket. -/
def IsEnd (rest : List Char) : Prop := ∀ c ∈ rest.head?, c = ',' ∨ c = ']' ∨ c = '\x7d'

theorem isEnd_nil : IsEnd [] := nofun

theorem isEnd_cons {c : Char} (h : c = ',' ∨ c = ']' ∨ c = '\x7d') (rest : List Char) :
    IsEnd (c :: rest) := by
  rintro c' hc
  cases hc
  exact h

theorem isDigit_of_mem_toDigits {n : Nat} {c : Char} (h : c ∈ Nat.toDigits 10 n) :
    c.isDigit = true := Nat.isDigit_of_mem_toDigits (by decide) (by decide) h

/-- A number is written with a digit in front. -/
theorem exists_toDigits_eq_cons (n : Nat) :
    ∃ c digits, Nat.toDigits 10 n = c :: digits ∧ c.isDigit = true := by
  cases hdigits : Nat.toDigits 10 n with
  | nil => exact absurd hdigits Nat.toDigits_ne_nil
  | cons c digits =>
    exact ⟨c, digits, rfl, isDigit_of_mem_toDigits (n := n) (hdigits ▸ List.mem_cons_self)⟩

/-- A number above zero is not written with a zero in front. -/
theorem head?_toDigits_ne {n : Nat} (h : 0 < n) : (Nat.toDigits 10 n).head? ≠ some '0' := by
  induction n using Nat.strongRecOn with
  | ind n ih =>
    rw [Nat.toDigits_eq_if (by decide)]
    split
    · rw [List.head?_cons, Ne, Option.some_inj, Nat.digitChar_eq_zero]
      omega
    · obtain ⟨c, digits, hdigits, -⟩ := exists_toDigits_eq_cons (n / 10)
      have hhead := ih (n / 10) (by omega) (by omega)
      rw [hdigits] at hhead
      rw [hdigits, List.cons_append]
      exact hhead

theorem readDigits_append {digits rest : List Char} (hdigits : ∀ c ∈ digits, c.isDigit = true)
    (hrest : IsEnd rest) : readDigits (digits ++ rest) = (digits.map decimalValue, rest) := by
  have hstop : ∀ c ∈ rest.head?, c.isDigit = false := by
    intro c hc
    rcases hrest c hc with rfl | rfl | rfl <;> rfl
  rw [readDigits, List.takeWhile_append_of_pos hdigits, List.dropWhile_append_of_pos hdigits]
  cases rest with
  | nil => simp
  | cons c rest => simp [hstop c rfl]

theorem readInteger_toDigits (n : Nat) {rest : List Char} (hrest : IsEnd rest) :
    readInteger (Nat.toDigits 10 n ++ rest) =
      some ((Nat.toDigits 10 n).map decimalValue, rest) := by
  rcases Nat.eq_zero_or_pos n with rfl | hpositive
  · rfl
  have hread := readDigits_append (fun c => isDigit_of_mem_toDigits (c := c) (n := n)) hrest
  have hhead := head?_toDigits_ne hpositive
  obtain ⟨c, digits, hdigits, -⟩ := exists_toDigits_eq_cons n
  rw [hdigits] at hread hhead ⊢
  rw [List.cons_append] at hread ⊢
  rw [readInteger, hread]
  · rfl
  · rintro rest' heq
    cases heq
    exact hhead rfl

/-- **A number is read back**, and then what follows it. -/
theorem readNumeral_toDigits (value : UInt64) {rest : List Char} (hrest : IsEnd rest) :
    readNumeral (Nat.toDigits 10 value.toNat ++ rest) = some (.natural value, rest) := by
  have hfraction : readFraction rest = some ([], rest) := by
    rw [readFraction]
    rintro rest' rfl
    exact absurd (hrest '.' rfl) (by decide)
  have hexponent : readExponent rest = some (none, rest) := by
    cases rest with
    | nil => rfl
    | cons c rest =>
      refine if_neg ?_
      rintro (rfl | rfl) <;> exact absurd (hrest _ rfl) (by decide)
  have hvalue : ((Nat.toDigits 10 value.toNat).map decimalValue).foldl
      (fun value d => 10 * value + d) 0 = value.toNat := by
    rw [List.foldl_map]
    have hchars := Nat.ofDigitChars_ten_toDigits (n := value.toNat)
    rwa [Nat.ofDigitChars_eq_foldl] at hchars
  have hsign : ∀ rest', Nat.toDigits 10 value.toNat ++ rest ≠ '-' :: rest' := by
    intro rest' heq
    obtain ⟨c, digits, hdigits, hdigit⟩ := exists_toDigits_eq_cons value.toNat
    rw [hdigits, List.cons_append] at heq
    cases heq
    cases hdigit
  rw [readNumeral]
  · simp only [readInteger_toDigits value.toNat hrest, hfraction, hexponent, Option.bind_eq_bind,
      Option.bind_some]
    have hnatural : Numeral.natural?
        ⟨false, (Nat.toDigits 10 value.toNat).map decimalValue, [], 0, true⟩ = some value := by
      simp [Numeral.natural?, hvalue, value.toNat_lt]
    change some (Numeral.document ⟨false, _, [], 0, true⟩ _ rest, rest) = _
    rw [Numeral.document, hnatural]
  · exact hsign

/-! ## Documents -/

mutual

/-- Whether a document has neither numerals that are kept as written nor parts without a value. -/
def isPlain : Json → Bool
  | .real _ => false
  | .unreadable => false
  | .array items => arePlain items
  | .object members => membersPlain members
  | _ => true

def arePlain : List Json → Bool
  | [] => true
  | item :: rest => isPlain item && arePlain rest

def membersPlain : List (String × Json) → Bool
  | [] => true
  | (_, value) :: rest => isPlain value && membersPlain rest

end

theorem arePlain_iff {items : List Json} :
    arePlain items = true ↔ ∀ item ∈ items, item.isPlain = true := by
  induction items with
  | nil => simp [arePlain]
  | cons item rest ih => rw [arePlain, Bool.and_eq_true, ih, List.forall_mem_cons]

mutual

/-- The document without the containers that nest deeper than there is room for: they have no
value. -/
def toDepth (room : Nat) : Json → Json
  | .array items => contained room (.array (itemsToDepth (room - 1) items))
  | .object members => contained room (.object (membersToDepth (room - 1) members))
  | j => j

def itemsToDepth (room : Nat) : List Json → List Json
  | [] => []
  | item :: rest => toDepth room item :: itemsToDepth room rest

def membersToDepth (room : Nat) : List (String × Json) → List (String × Json)
  | [] => []
  | (key, value) :: rest => (key, toDepth room value) :: membersToDepth room rest

end

theorem skipSpace_cons {c : Char} (h : isSpace c = false) (rest : List Char) :
    skipSpace (c :: rest) = c :: rest := by
  rw [skipSpace, List.dropWhile_cons_of_neg (by simp [h])]

theorem ne_of_isDigit {c d : Char} (hc : c.isDigit = true) (hd : d.isDigit = false) : c ≠ d := by
  rintro rfl
  rw [hc] at hd
  cases hd

/-- A document starts neither with white space nor with a closing bracket. -/
theorem exists_chars_eq_cons {j : Json} (h : j.isPlain = true) :
    ∃ c rest, chars j = c :: rest ∧ isSpace c = false ∧ c ≠ ']' := by
  cases j with
  | null => exact ⟨_, _, rfl, rfl, by decide⟩
  | bool value => cases value <;> exact ⟨_, _, by rw [chars], rfl, by decide⟩
  | natural value =>
    obtain ⟨c, digits, hdigits, hdigit⟩ := exists_toDigits_eq_cons value.toNat
    refine ⟨c, digits, by rw [chars, hdigits], ?_, ?_⟩
    · simp [isSpace, ne_of_isDigit hdigit]
    · exact ne_of_isDigit hdigit rfl
  | real numeral => cases h
  | string text => exact ⟨_, _, by rw [chars], rfl, by decide⟩
  | array items => exact ⟨_, _, by rw [chars], rfl, by decide⟩
  | object members => exact ⟨_, _, by rw [chars], rfl, by decide⟩
  | unreadable => cases h

section Steps

variable (fuel room : Nat) (rest : List Char)

theorem keep?_lenient (j : Json) : Reading.lenient.keep? j = some j := by
  cases j <;> rfl

theorem readValue_quote :
    readValue .lenient (fuel + 1) room ('"' :: rest) =
      (readString rest).map fun p => ((p.1.map Json.string).getD .unreadable, p.2) := by
  rw [readValue, skipSpace_cons (by decide)]
  change (readString rest).bind (fun p => (Reading.lenient.keep? _).bind fun j => some (j, p.2)) = _
  simp only [keep?_lenient]
  cases readString rest <;> rfl

theorem readValue_bracket :
    readValue .lenient (fuel + 1) room ('[' :: rest) =
      match skipSpace rest with
      | ']' :: after => some (contained room (.array []), after)
      | _ =>
        (readItems .lenient fuel (room - 1) rest).map fun p =>
          (contained room (.array p.1), p.2) := by
  rw [readValue, skipSpace_cons (by decide)]
  change (match skipSpace rest with
    | ']' :: after =>
      (Reading.lenient.keep? (contained room (.array []))).bind fun j => some (j, after)
    | _ =>
      (readItems .lenient fuel (room - 1) rest).bind fun p =>
        (Reading.lenient.keep? (contained room (.array p.1))).bind fun j => some (j, p.2)) = _
  simp only [keep?_lenient]
  split
  · rfl
  · cases readItems .lenient fuel (room - 1) rest <;> rfl

theorem readValue_brace :
    readValue .lenient (fuel + 1) room ('\x7b' :: rest) =
      match skipSpace rest with
      | '\x7d' :: after => some (contained room (.object []), after)
      | _ =>
        (readMembers .lenient fuel (room - 1) rest).map fun p =>
          (contained room (ofMembers p.1), p.2) := by
  rw [readValue, skipSpace_cons (by decide)]
  change (match skipSpace rest with
    | '\x7d' :: after =>
      (Reading.lenient.keep? (contained room (.object []))).bind fun j => some (j, after)
    | _ =>
      (readMembers .lenient fuel (room - 1) rest).bind fun p =>
        (Reading.lenient.keep? (contained room (ofMembers p.1))).bind fun j => some (j, p.2)) = _
  simp only [keep?_lenient]
  split
  · rfl
  · cases readMembers .lenient fuel (room - 1) rest <;> rfl

theorem readItems_item {text after : List Char} {item : Json}
    (hread : readValue .lenient fuel room text = some (item, after)) :
    readItems .lenient (fuel + 1) room text =
      match skipSpace after with
      | ']' :: after => some ([item], after)
      | ',' :: rest =>
        (readItems .lenient fuel room rest).bind fun p => some (item :: p.1, p.2)
      | _ => none := by
  rw [readItems, hread]
  rfl

theorem readMembers_member {text after : List Char} {value : Json} (key : String)
    (hread : readValue .lenient fuel room text = some (value, after)) :
    readMembers .lenient (fuel + 1) room ('"' :: (stringTail key.toList ++ ':' :: text)) =
      match skipSpace after with
      | '\x7d' :: after => some ([(some key, value)], after)
      | ',' :: rest =>
        (readMembers .lenient fuel room rest).bind fun p => some ((some key, value) :: p.1, p.2)
      | _ => none := by
  rw [readMembers, skipSpace_cons (by decide)]
  change (readString _).bind _ = _
  rw [readString_stringTail, Option.bind_some]
  dsimp only
  rw [skipSpace_cons (by decide)]
  change (readValue .lenient fuel room _).bind _ = _
  rw [hread]
  rfl

theorem readValue_digit {c : Char} (h : c.isDigit = true) :
    readValue .lenient (fuel + 1) room (c :: rest) = readNumeral (c :: rest) := by
  have hspace : isSpace c = false := by simp [isSpace, ne_of_isDigit h]
  rw [readValue, skipSpace_cons hspace]
  simp only [keep?_lenient]
  split
  case h_7 =>
    cases readNumeral (c :: rest) <;> rfl
  all_goals
    rename_i heq
    cases heq
    cases h

end Steps

/-- The members found in an object whose keys have a value. -/
theorem ofMembers_map_some (members : List (String × Json)) :
    ofMembers (members.map fun m => (some m.1, m.2)) = .object members := by
  have hmap : (members.map fun m => (some m.1, m.2)).mapM
      (fun m => m.1.map fun key => (key, m.2)) = some members := by
    induction members with
    | nil => rfl
    | cons m rest ih =>
      rw [List.map_cons, List.mapM_cons, ih]
      rfl
  rw [ofMembers, hmap]

theorem itemsChars_cons (item : Json) (items : List Json) :
    ∃ tail, itemsChars (item :: items) = chars item ++ tail := by
  cases items with
  | nil => exact ⟨_, by rw [itemsChars]⟩
  | cons next items => exact ⟨_, by rw [itemsChars]⟩

/-- No document is without a character, so there is fuel for reading it. -/
theorem length_chars_pos {j : Json} (h : j.isPlain = true) : 0 < (chars j).length := by
  obtain ⟨c, rest, hchars, -⟩ := exists_chars_eq_cons h
  rw [hchars]
  exact Nat.zero_lt_succ _

-- Every call that reads a part has less fuel, so the induction is on that.
mutual

/-- **A document is read back**, but for containers that nest too deep. -/
theorem readValue_chars (j : Json) (hplain : j.isPlain = true) (fuel room : Nat)
    {rest : List Char} (hfuel : (chars j).length ≤ fuel) (hrest : IsEnd rest) :
    readValue .lenient fuel room (chars j ++ rest) = some (j.toDepth room, rest) := by
  obtain ⟨c, after, hchars, hspace, -⟩ := exists_chars_eq_cons hplain
  match fuel with
  | 0 => exact absurd (length_chars_pos hplain) (by omega)
  | fuel + 1 =>
    match j with
    | .null =>
      rw [readValue, hchars, List.cons_append, skipSpace_cons hspace, ← List.cons_append, ← hchars]
      rfl
    | .bool value =>
      rw [readValue, hchars, List.cons_append, skipSpace_cons hspace, ← List.cons_append, ← hchars]
      cases value <;> rfl
    | .natural value =>
      obtain ⟨d, digits, hdigits, hdigit⟩ := exists_toDigits_eq_cons value.toNat
      rw [chars, hdigits, List.cons_append, readValue_digit _ _ _ hdigit, ← List.cons_append,
        ← hdigits, readNumeral_toDigits value hrest]
      rfl
    | .string text =>
      rw [chars, List.cons_append, readValue_quote, readString_stringTail]
      rfl
    | .array [] =>
      rw [chars, itemsChars, List.cons_append, readValue_bracket, List.singleton_append,
        skipSpace_cons (by decide)]
      rfl
    | .array (item :: items) =>
      have hread := readItems_itemsChars item items hplain fuel (room - 1) rest
        (by simpa [chars] using hfuel)
      rw [isPlain, arePlain, Bool.and_eq_true] at hplain
      -- What follows the bracket is the first item, so the array is not taken for an empty one.
      obtain ⟨tail, htail⟩ := itemsChars_cons item items
      obtain ⟨c, front, hitem, hspace, hne⟩ := exists_chars_eq_cons hplain.1
      rw [chars, List.cons_append, readValue_bracket, hread, htail, hitem, List.cons_append,
        List.cons_append, skipSpace_cons hspace]
      split
      · rename_i heq
        exact absurd (List.cons.inj heq).1 hne
      · rfl
    | .object [] =>
      rw [chars, membersChars, List.cons_append, readValue_brace, List.singleton_append,
        skipSpace_cons (by decide)]
      rfl
    | .object ((key, value) :: members) =>
      have hread := readMembers_membersChars key value members hplain fuel (room - 1) rest
        (by simpa [chars] using hfuel)
      obtain ⟨tail, htail⟩ : ∃ tail, membersChars ((key, value) :: members) = '"' :: tail := by
        cases members <;> exact ⟨_, by rw [membersChars]⟩
      rw [chars, List.cons_append, readValue_brace, hread, htail, List.cons_append,
        skipSpace_cons (by decide)]
      change some (contained room (ofMembers _), rest) = _
      rw [ofMembers_map_some, toDepth]

theorem readItems_itemsChars (item : Json) (items : List Json)
    (hplain : arePlain (item :: items) = true) (fuel room : Nat) (rest : List Char)
    (hfuel : (itemsChars (item :: items)).length ≤ fuel) :
    readItems .lenient fuel room (itemsChars (item :: items) ++ rest) =
      some (itemsToDepth room (item :: items), rest) := by
  rw [arePlain, Bool.and_eq_true] at hplain
  obtain ⟨hitem, hitems⟩ := hplain
  match fuel, items with
  | 0, [] | 0, _ :: _ =>
    rw [itemsChars, List.length_append] at hfuel
    exact absurd (length_chars_pos hitem) (by omega)
  | fuel + 1, [] =>
    rw [itemsChars, List.length_append, List.length_singleton] at hfuel
    have hread := readValue_chars item hitem fuel room (by omega)
      (isEnd_cons (.inr (.inl rfl)) rest)
    rw [itemsChars, List.append_assoc, List.singleton_append, readItems_item _ _ hread,
      skipSpace_cons (by decide)]
    rfl
  | fuel + 1, next :: items =>
    rw [itemsChars, List.length_append, List.length_cons] at hfuel
    have hread := readValue_chars item hitem fuel room (by omega)
      (isEnd_cons (.inl rfl) (itemsChars (next :: items) ++ rest))
    have hlater := readItems_itemsChars next items hitems fuel room rest (by omega)
    rw [itemsChars, List.append_assoc, List.cons_append, readItems_item _ _ hread,
      skipSpace_cons (by decide)]
    change (readItems .lenient fuel room _).bind _ = _
    rw [hlater]
    rfl

theorem readMembers_membersChars (key : String) (value : Json) (members : List (String × Json))
    (hplain : membersPlain ((key, value) :: members) = true) (fuel room : Nat)
    (rest : List Char) (hfuel : (membersChars ((key, value) :: members)).length ≤ fuel) :
    readMembers .lenient fuel room (membersChars ((key, value) :: members) ++ rest) =
      some ((membersToDepth room ((key, value) :: members)).map fun m => (some m.1, m.2),
        rest) := by
  rw [membersPlain, Bool.and_eq_true] at hplain
  obtain ⟨hvalue, hmembers⟩ := hplain
  match fuel, members with
  | 0, [] | 0, _ :: _ =>
    rw [membersChars, List.length_cons] at hfuel
    exact absurd hfuel (by omega)
  | fuel + 1, [] =>
    rw [membersChars] at hfuel ⊢
    simp only [List.length_cons, List.length_append, List.length_nil] at hfuel
    have hread := readValue_chars value hvalue fuel room (by omega)
      (isEnd_cons (.inr (.inr rfl)) rest)
    rw [List.cons_append, List.append_assoc, List.cons_append, List.append_assoc,
      List.singleton_append, readMembers_member _ _ _ hread, skipSpace_cons (by decide)]
    rfl
  | fuel + 1, (key', value') :: members =>
    rw [membersChars] at hfuel ⊢
    simp only [List.length_cons, List.length_append] at hfuel
    have hread := readValue_chars value hvalue fuel room (by omega)
      (isEnd_cons (.inl rfl) (membersChars ((key', value') :: members) ++ rest))
    have hlater := readMembers_membersChars key' value' members hmembers fuel room rest (by omega)
    rw [List.cons_append, List.append_assoc, List.cons_append, List.append_assoc,
      List.cons_append, readMembers_member _ _ _ hread, skipSpace_cons (by decide)]
    change (readMembers .lenient fuel room _).bind _ = _
    rw [hlater]
    rfl

end

/-- **A printed document is read back**, but for containers that nest too deep. -/
theorem parse?_compact {j : Json} (h : j.isPlain = true) :
    parse? j.compact = some (j.toDepth maxDepth) := by
  have hread := readValue_chars j h ((chars j).length + 1) maxDepth (by omega) isEnd_nil
  rw [List.append_nil] at hread
  rw [parse?, ofChars?, compact, String.toList_ofList, hread]
  rfl

end SlotLedger.Json
