import SlotLedger.Document.Value

/-!
# Words are read back

A word is written in hexadecimal digits without leading zeros, and these digits tell the word.

## Main results

* `Word.ofNumeral?_shortHex`: a word is read back from its numeral
-/

namespace SlotLedger

namespace Bytes

theorem utf8_ofList (chars : List Char) :
    utf8 (String.ofList chars) = chars.flatMap String.utf8EncodeChar := by
  rw [utf8, String.toByteArray_ofList, List.utf8Encode, List.data_toByteArray]

end Bytes

namespace Numeral

/-- The octet of a digit is read as the digit. -/
theorem octets_digitChar : ∀ d < 16, ∃ b, String.utf8EncodeChar (Nat.digitChar d) = [b] ∧
    b ≠ separator ∧ digit? 16 b = some d := by
  intro d hd
  refine ⟨(String.utf8EncodeChar (Nat.digitChar d)).headD 0, ?_⟩
  revert d
  decide

theorem digits?_digitChars {digits : List Nat} (h : ∀ d ∈ digits, d < 16) :
    digits? 16 (Bytes.utf8 (String.ofList (digits.map Nat.digitChar))) = some digits := by
  rw [Bytes.utf8_ofList, digits?]
  induction digits with
  | nil => rfl
  | cons d rest ih =>
    obtain ⟨hd, hrest⟩ := List.forall_mem_cons.mp h
    obtain ⟨b, hb, hseparator, hdigit⟩ := octets_digitChar d hd
    rw [List.map_cons, List.flatMap_cons, hb, List.singleton_append,
      List.filter_cons_of_pos (by simpa using hseparator), List.mapM_cons, hdigit, ih hrest]
    rfl

/-- The digits of a number tell the number. -/
theorem exists_toDigits_eq {radix : Nat} (hradix : 1 < radix) (n : Nat) :
    ∃ digits, Nat.toDigits radix n = digits.map Nat.digitChar ∧ (∀ d ∈ digits, d < radix) ∧
      valueOf radix digits = n := by
  induction n using Nat.strongRecOn with
  | ind n ih =>
    rw [Nat.toDigits_eq_if hradix]
    split
    · rename_i hsmall
      exact ⟨[n], rfl, List.forall_mem_singleton.mpr hsmall, by simp [valueOf]⟩
    · rename_i hlarge
      obtain ⟨digits, hdigits, hlow, hvalue⟩ :=
        ih (n / radix) (Nat.div_lt_self (by omega) hradix)
      refine ⟨digits ++ [n % radix], by rw [hdigits, List.map_append]; rfl, ?_, ?_⟩
      · exact List.forall_mem_append.mpr
          ⟨hlow, List.forall_mem_singleton.mpr (Nat.mod_lt n (by omega))⟩
      · rw [valueOf] at hvalue ⊢
        rw [List.foldl_append, hvalue, List.foldl_cons, List.foldl_nil, Nat.div_add_mod]

end Numeral

/-- **A word is read back** from its numeral. -/
theorem Word.ofNumeral?_shortHex (w : Word) : Word.ofNumeral? (Word.shortHex w) = some w := by
  have hradix : 1 < 16 := by decide
  obtain ⟨digits, hdigits, hlow, hvalue⟩ := Numeral.exists_toDigits_eq hradix w.toNat
  have hbound : w.toNat < Word.bound := w.isLt
  rw [shortHex, ofNumeral?, String.toList_ofList]
  change Numeral.word? 16 _ = _
  rw [Numeral.word?, hdigits, Numeral.digits?_digitChars hlow]
  change (if Numeral.valueOf 16 digits < Word.bound then _ else _) = _
  rw [hvalue, if_pos hbound, BitVec.ofNat_toNat]
  rfl

end SlotLedger
