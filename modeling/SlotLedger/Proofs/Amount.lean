import Mathlib.Data.Nat.Digits.Defs
import SlotLedger.Amount
import SlotLedger.Proofs.Document.Words
import SlotLedger.Proofs.Outcome

/-!
# What amounts stand for

A numeral is judged octet by octet: in decimal from the left, with the range looked at after every
chunk of digits, and in hexadecimal from the right, with room for sixty-four digits.  Either way its
value is the number that its digits have at their places, however many digits there are, and it is
refused exactly if this number is no amount.  Every octet of a character that is not in ASCII is no
digit, so the octets of a text are digits exactly if its characters are.

## Main definitions

* `Numeral.digitValue?`, `Numeral.Denotes`: the number of a list of digits in a radix
* `Amount.Denotes`: the number of a text in decimal, or in hexadecimal after `0x`
* `Numeral.fit`: a number as a word, if it is one

## Main results

* `Numeral.digits?_utf8_eq_some_iff`: digits among characters and among octets
* `Numeral.decimal?_eq_fit`, `Numeral.hexadecimal?_eq_fit`: the value of digits
* `Amount.parse_eq_ok_iff`: which texts are amounts
* `Amount.parse_exact`: what is made of every text
-/

namespace SlotLedger

namespace Numeral

/-! ## Digits -/

/-- The value of a digit in a radix, whether a letter is small or capital. -/
def digitValue? (radix : Nat) (c : Char) : Option Nat :=
  ("0123456789abcdef".toList.idxOf? c.toLower).filter (· < radix)

/-- The characters are digits in a radix and underscores, and the digits stand for the number, the
lowest digit being the last one. -/
def Denotes (radix : Nat) (chars : List Char) (n : Nat) : Prop :=
  ∃ digits : List Nat, (chars.filter (· != '_')).map (digitValue? radix) = digits.map some ∧
    Nat.ofDigits radix digits.reverse = n

theorem digits?_eq_some_iff {radix : Nat} {octets : Bytes} {digits : List Nat} :
    digits? radix octets = some digits ↔
      (octets.filter (· != separator)).map (digit? radix) = digits.map some := by
  rw [digits?]
  generalize octets.filter (· != separator) = octets
  induction octets generalizing digits with
  | nil => cases digits <;> simp
  | cons b rest ih =>
    rw [List.mapM_cons, List.map_cons]
    cases digits with
    | nil => cases digit? radix b <;> simp [Option.bind_eq_some_iff]
    | cons d digits =>
      cases digit? radix b <;> simp [Option.bind_eq_some_iff, ih, and_comm]

theorem digits?_reverse_eq_some_iff {radix : Nat} {octets : Bytes} {digits : List Nat} :
    digits? radix octets.reverse = some digits.reverse ↔ digits? radix octets = some digits := by
  simp only [digits?_eq_some_iff, List.filter_reverse, List.map_reverse, List.reverse_inj]

/-- An octet beyond ASCII is no digit. -/
theorem digit?_eq_none {radix : Nat} {b : UInt8} (hb : 128 ≤ b.toNat) : digit? radix b = none := by
  have hdecimal : ¬ (0x30 ≤ b.toNat ∧ b.toNat ≤ 0x39) := by omega
  have hsmall : ¬ (0x61 ≤ b.toNat ∧ b.toNat ≤ 0x66) := by omega
  have hcapital : ¬ (0x41 ≤ b.toNat ∧ b.toNat ≤ 0x46) := by omega
  simp [digit?, hdecimal, hsmall, hcapital]

theorem digitValue?_eq_none {radix : Nat} {c : Char} (hc : 128 ≤ c.toNat) :
    digitValue? radix c = none := by
  -- Only the capital letters of ASCII have another small letter.
  have hlower : c.toLower = c := by
    refine dif_neg fun hupper => ?_
    have hle : c.toNat ≤ 'Z'.toNat := UInt32.le_iff_toNat_le.mp hupper.2
    exact absurd (Nat.le_trans hc hle) (by decide)
  have hascii : "0123456789abcdef".toList.all (fun d => d.toNat < 128) = true := by decide
  have hnone : "0123456789abcdef".toList.idxOf? c = none := by
    rw [List.idxOf?_eq_none_iff]
    intro hmem
    exact absurd hc (Nat.not_le.mpr (of_decide_eq_true (List.all_eq_true.mp hascii c hmem)))
  rw [digitValue?, hlower, hnone]
  rfl

/-- The digits of a radix are those of the greatest one that are small enough. -/
theorem digit?_eq_filter (radix : Nat) (b : UInt8) :
    digit? radix b = (digit? 16 b).filter (· < radix) := by
  simp only [digit?]
  split
  · have hvalue : b.toNat - 0x30 < 16 := by omega
    simp [hvalue, Option.filter_some]
  split
  · have hvalue : b.toNat - 0x61 + 10 < 16 := by omega
    simp [hvalue, Option.filter_some]
  split
  · have hvalue : b.toNat - 0x41 + 10 < 16 := by omega
    simp [hvalue, Option.filter_some]
  · simp

theorem digit?_ascii (radix : Nat) {n : Nat} (hn : n < 128) (hunderscore : n ≠ '_'.toNat) :
    digit? radix (UInt8.ofNat n) = digitValue? radix (Char.ofNat n) := by
  -- ASCII is small enough to try every octet in the greatest radix.
  have hgreatest : ∀ n < 128, n ≠ '_'.toNat → digit? 16 (UInt8.ofNat n) =
      "0123456789abcdef".toList.idxOf? (Char.ofNat n).toLower := by
    decide +kernel
  rw [digit?_eq_filter, hgreatest n hn hunderscore, digitValue?]

/-- The first octet of a character beyond ASCII is beyond ASCII. -/
theorem exists_utf8EncodeChar_eq_of_le {c : Char} (hc : 128 ≤ c.toNat) :
    ∃ b rest, String.utf8EncodeChar c = b :: rest ∧ 128 ≤ b.toNat := by
  have hvalue : ¬ c.val.toNat ≤ 127 := Nat.not_le.mpr hc
  rw [String.utf8EncodeChar]
  simp only [if_neg hvalue]
  split_ifs
  all_goals
    refine ⟨_, _, rfl, ?_⟩
    rw [UInt8.toNat_ofNat']
    omega

/-- The first octet of a character tells whether it is a digit, and a digit has no other octets. -/
theorem exists_utf8EncodeChar_eq (radix : Nat) {c : Char} (hc : c ≠ '_') :
    ∃ b rest, String.utf8EncodeChar c = b :: rest ∧ b ≠ separator ∧
      digit? radix b = digitValue? radix c ∧ (rest = [] ∨ digitValue? radix c = none) := by
  -- In ASCII the octet is the character; beyond it the first octet is no digit either.
  by_cases hascii : c.toNat < 128
  · have hunderscore : c.toNat ≠ '_'.toNat := fun h => hc (Char.toNat_inj.mp h)
    have hdigit := digit?_ascii radix hascii hunderscore
    rw [Char.ofNat_toNat] at hdigit
    refine ⟨UInt8.ofNat c.toNat, [], if_pos (Nat.le_of_lt_succ hascii), ?_, hdigit, .inl rfl⟩
    intro hseparator
    have hnat := congrArg UInt8.toNat hseparator
    rw [UInt8.toNat_ofNat', Nat.mod_eq_of_lt (by omega)] at hnat
    exact hunderscore hnat
  · have hlarge := Nat.not_lt.mp hascii
    obtain ⟨b, rest, hencoded, hb⟩ := exists_utf8EncodeChar_eq_of_le hlarge
    refine ⟨b, rest, hencoded, ?_, ?_, .inr (digitValue?_eq_none hlarge)⟩
    · rintro rfl
      exact absurd hb (by decide)
    · rw [digit?_eq_none hb, digitValue?_eq_none hlarge]

/-- The octets of a text are digits and separators exactly if its characters are. -/
theorem digits?_utf8_eq_some_iff {radix : Nat} {chars : List Char} {digits : List Nat} :
    digits? radix (Bytes.utf8 (String.ofList chars)) = some digits ↔
      (chars.filter (· != '_')).map (digitValue? radix) = digits.map some := by
  rw [digits?_eq_some_iff, Bytes.utf8_ofList]
  induction chars generalizing digits with
  | nil => rfl
  | cons c rest ih =>
    rw [List.flatMap_cons, List.filter_append, List.map_append]
    by_cases hc : c = '_'
    · rw [hc]
      exact ih
    obtain ⟨b, others, hencoded, hb, hdigit, hothers⟩ := exists_utf8EncodeChar_eq radix hc
    rw [List.filter_cons_of_pos (by simpa using hc), hencoded,
      List.filter_cons_of_pos (by simpa using hb), List.map_cons, hdigit, List.map_cons]
    cases digits with
    | nil => simp
    | cons d digits =>
      -- Where a character has more octets than one, it is no digit and neither side holds.
      rcases hothers with rfl | hnone
      · rw [List.map_cons, List.cons_append, List.cons.injEq, List.cons.injEq, ← ih]
        rfl
      · simp [hnone]

/-! ## Values -/

/-- A number as a word, unless it is too large. -/
def fit (n : Nat) : Except NumeralFault Word :=
  if n < Word.bound then .ok (BitVec.ofNat 256 n) else .error .tooLarge

theorem digits?_cons_eq_some_iff {radix : Nat} {b : UInt8} {rest : Bytes} {digits : List Nat} :
    digits? radix (b :: rest) = some digits ↔
      (b = separator ∧ digits? radix rest = some digits) ∨
        (b ≠ separator ∧ ∃ d later, digit? radix b = some d ∧ digits? radix rest = some later ∧
          d :: later = digits) := by
  rw [digits?]
  by_cases hb : b = separator
  · rw [List.filter_cons_of_neg (by simpa using hb)]
    simp [hb, digits?]
  · rw [List.filter_cons_of_pos (by simpa using hb), List.mapM_cons]
    simp [hb, digits?, Option.bind_eq_some_iff]

theorem digits?_cons_eq_none_iff {radix : Nat} {b : UInt8} {rest : Bytes} :
    digits? radix (b :: rest) = none ↔
      (b = separator ∧ digits? radix rest = none) ∨
        (b ≠ separator ∧ (digit? radix b = none ∨ digits? radix rest = none)) := by
  rw [digits?]
  by_cases hb : b = separator
  · rw [List.filter_cons_of_neg (by simpa using hb)]
    simp [hb, digits?]
  · rw [List.filter_cons_of_pos (by simpa using hb), List.mapM_cons, ← digits?]
    cases digit? radix b <;> cases digits? radix rest <;> simp [hb]

theorem digit?_lt {radix : Nat} {b : UInt8} {d : Nat} (hd : digit? radix b = some d) :
    d < radix := by
  simp only [digit?, Option.ite_none_right_eq_some, Option.some.injEq] at hd
  exact hd.2 ▸ hd.1

/-- More digits make no smaller number. -/
theorem le_foldl_digits (radix value : Nat) (hradix : 0 < radix) (digits : List Nat) :
    value ≤ digits.foldl (fun value d => radix * value + d) value := by
  induction digits generalizing value with
  | nil => exact Nat.le_refl _
  | cons d rest ih =>
    refine Nat.le_trans ?_ (ih _)
    exact Nat.le_add_right_of_le (Nat.le_mul_of_pos_left value hradix)

theorem valueOf_eq_ofDigits (radix : Nat) (digits : List Nat) :
    valueOf radix digits = Nat.ofDigits radix digits.reverse := by
  rw [valueOf, Nat.ofDigits_eq_foldr, List.foldr_reverse]
  simp [Nat.add_comm]

/-- **Decimal digits have the value they show**, wherever the range is looked at: what is too large
after some digits stays so. -/
theorem decimalFrom_eq_fit {value taken : Nat} {octets : Bytes} {digits : List Nat}
    (hdigits : digits? 10 octets = some digits) :
    decimalFrom value taken octets = fit (digits.foldl (fun value d => 10 * value + d) value) := by
  induction octets generalizing value taken digits with
  | nil =>
    obtain rfl : [] = digits := Option.some.inj hdigits
    rfl
  | cons b rest ih =>
    rcases digits?_cons_eq_some_iff.mp hdigits with ⟨hb, hrest⟩ | ⟨hb, d, later, hd, hrest, rfl⟩
    · rw [decimalFrom, if_pos hb, ih hrest]
    · rw [decimalFrom, if_neg hb, hd]
      dsimp only
      split
      · rename_i hlarge
        have hlater := le_foldl_digits 10 (10 * value + d) (by decide) later
        rw [List.foldl_cons, fit, if_neg (Nat.not_lt.mpr (Nat.le_trans hlarge.2 hlater))]
      · rw [ih hrest, List.foldl_cons]

theorem exists_decimalFrom_eq_error {value taken : Nat} {octets : Bytes}
    (hdigits : digits? 10 octets = none) :
    ∃ fault, decimalFrom value taken octets = .error fault := by
  induction octets generalizing value taken with
  | nil => cases hdigits
  | cons b rest ih =>
    rcases digits?_cons_eq_none_iff.mp hdigits with ⟨hb, hrest⟩ | ⟨hb, hwrong⟩
    · rw [decimalFrom, if_pos hb]
      exact ih hrest
    · rw [decimalFrom, if_neg hb]
      cases hd : digit? 10 b with
      | none => exact ⟨_, rfl⟩
      | some d =>
        have hrest := hwrong.resolve_left (by simp [hd])
        dsimp only
        split
        · exact ⟨_, rfl⟩
        · exact ih hrest

theorem bound_eq_pow : Word.bound = 16 ^ 64 := by decide +kernel

/-- There is room for any digit while not all places are taken. -/
theorem add_digit_lt {value taken d : Nat} (htaken : taken < 64)
    (hvalue : value < 16 ^ min taken 64) (hd : d < 16) :
    value + d * 16 ^ taken < 16 ^ min (taken + 1) 64 := by
  rw [Nat.min_eq_left (Nat.le_of_lt htaken)] at hvalue
  rw [Nat.min_eq_left htaken, Nat.pow_succ']
  calc value + d * 16 ^ taken < (d + 1) * 16 ^ taken := by rw [Nat.succ_mul]; omega
    _ ≤ 16 * 16 ^ taken := Nat.mul_le_mul_right _ hd

/-- Once all places are taken, any digit but zero is too large. -/
theorem bound_le_add_digit {taken d : Nat} (hfull : 64 ≤ taken) (hd : d ≠ 0) (value later : Nat) :
    Word.bound ≤ value + 16 ^ taken * (d + 16 * later) := by
  rw [bound_eq_pow]
  calc 16 ^ 64 ≤ 16 ^ taken := Nat.pow_le_pow_right (by decide) hfull
    _ ≤ 16 ^ taken * (d + 16 * later) := Nat.le_mul_of_pos_right _ (by omega)
    _ ≤ value + 16 ^ taken * (d + 16 * later) := Nat.le_add_left ..

/-- **Hexadecimal digits have the value they show**: up to sixty-four of them always fit, and each
one beyond is too large by itself unless it is zero. -/
theorem hexadecimalFrom_eq_fit {value taken : Nat} {octets : Bytes} {digits : List Nat}
    (hdigits : digits? 16 octets = some digits) (hvalue : value < 16 ^ min taken 64) :
    hexadecimalFrom value taken octets = fit (value + 16 ^ taken * Nat.ofDigits 16 digits) := by
  induction octets generalizing value taken digits with
  | nil =>
    obtain rfl : [] = digits := Option.some.inj hdigits
    have hfits : value < Word.bound := by
      rw [bound_eq_pow]
      exact Nat.lt_of_lt_of_le hvalue (Nat.pow_le_pow_right (by decide) (Nat.min_le_right ..))
    rw [hexadecimalFrom, Nat.ofDigits_nil, Nat.mul_zero, Nat.add_zero, fit, if_pos hfits]
  | cons b rest ih =>
    rcases digits?_cons_eq_some_iff.mp hdigits with ⟨hb, hrest⟩ | ⟨hb, d, later, hd, hrest, rfl⟩
    · rw [hexadecimalFrom, if_pos hb, ih hrest hvalue]
    rw [hexadecimalFrom, if_neg hb, hd]
    dsimp only
    split
    · rename_i htaken
      rw [Nat.pow_eq, ih hrest (add_digit_lt htaken hvalue (digit?_lt hd)), Nat.ofDigits_cons,
        Nat.pow_succ]
      congr 1
      ring
    · rename_i htaken
      have hfull : 64 ≤ taken := Nat.not_lt.mp htaken
      rw [Nat.ofDigits_cons]
      split
      · -- A leading zero leaves the value as it is.
        rename_i hzero
        have hroom : value < 16 ^ min (taken + 1) 64 := by
          rw [Nat.min_eq_right hfull] at hvalue
          rwa [Nat.min_eq_right (Nat.le_add_right_of_le hfull)]
        rw [ih hrest hroom, hzero, Nat.pow_succ]
        congr 1
        ring
      · rename_i hpositive
        have hlarge := bound_le_add_digit hfull hpositive value (Nat.ofDigits 16 later)
        rw [fit, if_neg (Nat.not_lt.mpr hlarge)]

theorem exists_hexadecimalFrom_eq_error {value taken : Nat} {octets : Bytes}
    (hdigits : digits? 16 octets = none) :
    ∃ fault, hexadecimalFrom value taken octets = .error fault := by
  induction octets generalizing value taken with
  | nil => cases hdigits
  | cons b rest ih =>
    rcases digits?_cons_eq_none_iff.mp hdigits with ⟨hb, hrest⟩ | ⟨hb, hwrong⟩
    · rw [hexadecimalFrom, if_pos hb]
      exact ih hrest
    · rw [hexadecimalFrom, if_neg hb]
      cases hd : digit? 16 b with
      | none => exact ⟨_, rfl⟩
      | some d =>
        have hrest := hwrong.resolve_left (by simp [hd])
        dsimp only
        split
        · exact ih hrest
        split
        · exact ih hrest
        · exact ⟨_, rfl⟩

/-! ## Numerals -/

/-- **The value of decimal digits** is the number with these digits. -/
theorem decimal?_eq_fit {octets : Bytes} {digits : List Nat}
    (hdigits : digits? 10 octets = some digits) :
    decimal? octets = fit (Nat.ofDigits 10 digits.reverse) := by
  rw [decimal?, decimalFrom_eq_fit hdigits, ← valueOf_eq_ofDigits]
  rfl

/-- **The value of hexadecimal digits** is the number with these digits, though they are taken from
the right. -/
theorem hexadecimal?_eq_fit {octets : Bytes} {digits : List Nat}
    (hdigits : digits? 16 octets = some digits) :
    hexadecimal? octets = fit (Nat.ofDigits 16 digits.reverse) := by
  rw [hexadecimal?, hexadecimalFrom_eq_fit (digits?_reverse_eq_some_iff.mpr hdigits) (by decide),
    Nat.zero_add, Nat.pow_zero, Nat.one_mul]

theorem exists_decimal?_eq_error {octets : Bytes} (hdigits : digits? 10 octets = none) :
    ∃ fault, decimal? octets = .error fault :=
  exists_decimalFrom_eq_error hdigits

theorem exists_hexadecimal?_eq_error {octets : Bytes} (hdigits : digits? 16 octets = none) :
    ∃ fault, hexadecimal? octets = .error fault := by
  refine exists_hexadecimalFrom_eq_error (Option.eq_none_iff_forall_ne_some.mpr fun digits h => ?_)
  rw [← digits.reverse_reverse, digits?_reverse_eq_some_iff, hdigits] at h
  cases h

/-! ## Digits of a number -/

theorem digitValue?_digitChar : ∀ radix ≤ 16, ∀ d < radix,
    digitValue? radix (Nat.digitChar d) = some d ∧ Nat.digitChar d ≠ '_' := by
  decide +kernel

/-- The digits that a number is written with stand for the number. -/
theorem denotes_toDigits {radix : Nat} (hlow : 1 < radix) (hhigh : radix ≤ 16) (n : Nat) :
    Denotes radix (Nat.toDigits radix n) n := by
  obtain ⟨digits, hdigits, hsmall, hvalue⟩ := exists_toDigits_eq hlow n
  rw [valueOf_eq_ofDigits] at hvalue
  refine ⟨digits, ?_, hvalue⟩
  have hkept : ∀ c ∈ digits.map Nat.digitChar, (c != '_') = true := by
    rw [List.forall_mem_map]
    intro d hd
    exact bne_iff_ne.mpr (digitValue?_digitChar radix hhigh d (hsmall d hd)).2
  rw [hdigits, List.filter_eq_self.mpr hkept, List.map_map]
  exact List.map_congr_left fun d hd => (digitValue?_digitChar radix hhigh d (hsmall d hd)).1

/-- After the zero of a hexadecimal prefix comes no decimal digit. -/
theorem not_denotes_prefix {chars : List Char} {n : Nat} :
    ¬ Denotes 10 ('0' :: 'x' :: chars) n := by
  rintro ⟨digits, hdigits, -⟩
  have hx : digitValue? 10 'x' ∈ digits.map some := by
    rw [← hdigits]
    exact List.mem_map_of_mem (by simp)
  obtain ⟨d, -, hd⟩ := List.mem_map.mp hx
  have hnone : digitValue? 10 'x' = none := by decide
  rw [hnone] at hd
  cases hd

end Numeral

namespace Text

theorem trim_eq_self {chars : List Char} (h : ∀ c ∈ chars, isBlank c = false) :
    trim chars = chars := by
  have hkept : ∀ cs : List Char, (∀ c ∈ cs, isBlank c = false) → cs.dropWhile isBlank = cs := by
    intro cs hcs
    cases cs with
    | nil => rfl
    | cons c rest => exact List.dropWhile_cons_of_neg (by simp [hcs c List.mem_cons_self])
  rw [trim, hkept chars h, hkept chars.reverse fun c hc => h c (List.mem_reverse.mp hc),
    List.reverse_reverse]

end Text

namespace Amount

open Numeral (fit)

/-- The number of a text without white space around it: hexadecimal after `0x`, else decimal. -/
inductive Denotes : List Char → Nat → Prop
  | hexadecimal {digits : List Char} {n : Nat} (h : Numeral.Denotes 16 digits n) :
    Denotes ('0' :: 'x' :: digits) n
  | decimal {digits : List Char} {n : Nat} (h : Numeral.Denotes 10 digits n) : Denotes digits n

variable {text : String} {n : Nat}

theorem parse_of_denotes (h : Denotes (Text.trim text.toList) n) :
    parse text = (fit n).mapError (.malformed text) := by
  rw [parse]
  generalize Text.trim text.toList = chars at h ⊢
  cases h with
  | hexadecimal h =>
    obtain ⟨digits, hdigits, rfl⟩ := h
    have hread := Numeral.digits?_utf8_eq_some_iff.mpr hdigits
    exact congrArg _ (Numeral.hexadecimal?_eq_fit hread)
  | decimal h =>
    split
    · exact absurd h Numeral.not_denotes_prefix
    · obtain ⟨digits, hdigits, rfl⟩ := h
      have hread := Numeral.digits?_utf8_eq_some_iff.mpr hdigits
      rw [Numeral.decimal?_eq_fit hread]

theorem exists_parse_eq_error (h : ¬ ∃ n, Denotes (Text.trim text.toList) n) :
    ∃ reason, parse text = .error (.malformed text reason) := by
  have hnone : ∀ {radix : Nat} {chars : List Char}, (∀ n, ¬ Numeral.Denotes radix chars n) →
      Numeral.digits? radix (Bytes.utf8 (String.ofList chars)) = none := by
    intro radix chars hchars
    refine Option.eq_none_iff_forall_ne_some.mpr fun digits hdigits => ?_
    exact hchars _ ⟨digits, Numeral.digits?_utf8_eq_some_iff.mp hdigits, rfl⟩
  rw [parse]
  generalize Text.trim text.toList = chars at h ⊢
  split
  · obtain ⟨fault, hfault⟩ := Numeral.exists_hexadecimal?_eq_error
      (hnone fun n hn => h ⟨n, .hexadecimal hn⟩)
    exact ⟨fault, by rw [hfault]; rfl⟩
  · obtain ⟨fault, hfault⟩ := Numeral.exists_decimal?_eq_error
      (hnone fun n hn => h ⟨n, .decimal hn⟩)
    exact ⟨fault, by rw [hfault]; rfl⟩

theorem denotes_decimal (a : Amount) : Denotes (Text.trim (Word.decimal a).toList) a.toNat := by
  have hshown : ∀ d < 10, Text.isBlank (Nat.digitChar d) = false := by decide
  obtain ⟨digits, hdigits, hsmall, -⟩ := Numeral.exists_toDigits_eq (by decide : 1 < 10) a.toNat
  have hkept : ∀ c ∈ Nat.toDigits 10 a.toNat, Text.isBlank c = false := by
    rw [hdigits, List.forall_mem_map]
    exact fun d hd => hshown d (hsmall d hd)
  rw [Word.decimal, String.toList_ofList, Text.trim_eq_self hkept]
  exact .decimal (Numeral.denotes_toDigits (by decide) (by decide) _)

/-- **Which texts are amounts**: those that stand for the number of one. -/
theorem parse_eq_ok_iff {a : Amount} :
    parse text = .ok a ↔ Denotes (Text.trim text.toList) a.toNat := by
  constructor
  · intro h
    by_cases hdenotes : ∃ n, Denotes (Text.trim text.toList) n
    · obtain ⟨n, hn⟩ := hdenotes
      rw [parse_of_denotes hn, mapError_eq_ok_iff, fit] at h
      split at h
      · rename_i hfits
        have hexact : n % 2 ^ 256 = n := Nat.mod_eq_of_lt hfits
        rwa [← Except.ok.inj h, BitVec.toNat_ofNat, hexact]
      · cases h
    · obtain ⟨reason, hreason⟩ := exists_parse_eq_error hdenotes
      rw [hreason] at h
      cases h
  · intro h
    have hfits : a.toNat < Word.bound := a.isLt
    rw [parse_of_denotes h, fit, if_pos hfits, BitVec.ofNat_toNat]
    rfl

/-- White space, underscores and capitals make no difference. -/
example : parse " 0x_0fF\n" = .ok 255 := by decide +kernel

/-- Every amount is read back from its decimal digits. -/
theorem parse_decimal (a : Amount) : parse (Word.decimal a) = .ok a :=
  parse_eq_ok_iff.mpr (denotes_decimal a)

/-- **Amounts are parsed exactly.**  A text that without the white space around it is hexadecimal
after `0x`, or decimal, is the number that its digits stand for, however many there are, unless it
is too large.  Every other text is malformed.  In particular every amount is read back from its
decimal digits. -/
theorem parse_exact (text : String) :
    (∀ n, Denotes (Text.trim text.toList) n →
        parse text = if n < 2 ^ 256 then .ok (BitVec.ofNat 256 n)
          else .error (.malformed text .tooLarge)) ∧
      ((¬ ∃ n, Denotes (Text.trim text.toList) n) →
        ∃ reason, parse text = .error (.malformed text reason)) ∧
      ∀ a : Amount, parse (Word.decimal a) = .ok a := by
  refine ⟨fun n h => ?_, exists_parse_eq_error, parse_decimal⟩
  rw [parse_of_denotes h, fit, Word.bound, Nat.pow_eq]
  split <;> rfl

end Amount

end SlotLedger
