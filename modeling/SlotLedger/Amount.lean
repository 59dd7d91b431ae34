import SlotLedger.Text.Blank
import SlotLedger.Text.Quoted
import SlotLedger.Word

/-!
# Amounts

Checked arithmetic on amounts and the numerals they are read from.  Nothing wraps and nothing
saturates: a sum or difference that leaves the range, and a numeral that does not fit, is a fault.

## Main definitions

* `Amount.checkedAdd`, `Amount.checkedSub`, `Amount.requirePositive`.
* `Numeral.decimal?`, `Numeral.hexadecimal?`: the value of a digit string, or why it has none.
* `Amount.parse`: an amount written in decimal, or in hexadecimal after `0x`.
-/

namespace SlotLedger

/-- Why a digit string is no word. -/
inductive NumeralFault where
  /-- A character that is no digit of the radix. -/
  | invalidDigit (shown : Char)
  /-- A value of more than 256 bits. -/
  | tooLarge
deriving DecidableEq

/-- The fault in words. -/
def NumeralFault.message : NumeralFault → String
  | .invalidDigit shown => "invalid digit: " ++ shown.toString
  | .tooLarge => "the value is too large to fit the target type"

/-- Why an amount is refused. -/
inductive AmountFault where
  | overflow (a b : Amount)
  | underflow (a b : Amount)
  | notPositive
  | malformed (text : String) (reason : NumeralFault)
deriving DecidableEq

/-- The fault in words. -/
def AmountFault.message : AmountFault → String
  | .overflow a b => s!"overflow: {Word.decimal a} + {Word.decimal b}"
  | .underflow a b => s!"underflow: {Word.decimal a} - {Word.decimal b}"
  | .notPositive => "amount must be greater than zero"
  | .malformed text reason => s!"malformed amount {Text.quoted text}: {reason.message}"

namespace Numeral

/-- The value of a digit in any radix up to sixteen, if the octet is one. -/
def digit? (radix : Nat) (b : UInt8) : Option Nat :=
  let n := b.toNat
  let value :=
    if 0x30 ≤ n ∧ n ≤ 0x39 then n - 0x30
    else if 0x61 ≤ n ∧ n ≤ 0x66 then n - 0x61 + 10
    else if 0x41 ≤ n ∧ n ≤ 0x46 then n - 0x41 + 10
    else radix
  if value < radix then some value else none

/-- The octet that separates digits and counts for nothing. -/
def separator : UInt8 := 0x5f

/-- An octet as the character of the same code point. -/
def shown (b : UInt8) : Char := Char.ofNat b.toNat

/-- Digits taken from the left between two checks of the value's range. -/
def chunk : Nat := 19

/-- The value of decimal digits, highest first, after `taken` digits of value `value`.  The range is
checked when a whole chunk of digits has been taken and at the end. -/
def decimalFrom (value taken : Nat) : Bytes → Except NumeralFault Word
  | [] => if value < Word.bound then .ok (BitVec.ofNat 256 value) else .error .tooLarge
  | b :: rest =>
    if b = separator then
      decimalFrom value taken rest
    else
      match digit? 10 b with
      | none => .error (.invalidDigit (shown b))
      | some d =>
        let value := 10 * value + d
        if (taken + 1) % chunk = 0 ∧ Word.bound ≤ value then .error .tooLarge
        else decimalFrom value (taken + 1) rest

/-- The value of decimal digits, highest first; no digits are zero. -/
def decimal? (digits : Bytes) : Except NumeralFault Word := decimalFrom 0 0 digits

/-- The value of hexadecimal digits, lowest first, above `taken` digits of value `value`.  A digit
beyond the sixty-fourth must be zero. -/
def hexadecimalFrom (value taken : Nat) : Bytes → Except NumeralFault Word
  | [] => .ok (BitVec.ofNat 256 value)
  | b :: rest =>
    if b = separator then
      hexadecimalFrom value taken rest
    else
      match digit? 16 b with
      | none => .error (.invalidDigit (shown b))
      | some d =>
        if taken < 64 then hexadecimalFrom (value + d * Nat.pow 16 taken) (taken + 1) rest
        -- Leading zeros are no reason to refuse.
        else if d = 0 then hexadecimalFrom value (taken + 1) rest
        else .error .tooLarge

/-- The value of hexadecimal digits, highest first; no digits are zero.  The digits are judged from
the right. -/
def hexadecimal? (digits : Bytes) : Except NumeralFault Word := hexadecimalFrom 0 0 digits.reverse

/-- The digits of a text in the given radix, separators left out; `none` if another octet occurs. -/
def digits? (radix : Nat) (text : Bytes) : Option (List Nat) :=
  (text.filter (· != separator)).mapM (digit? radix)

/-- The number with the given digits, highest first. -/
def valueOf (radix : Nat) (digits : List Nat) : Nat :=
  digits.foldl (fun value d => radix * value + d) 0

/-- The word with the given digits in any radix up to sixteen, if there is one. -/
def word? (radix : Nat) (text : Bytes) : Option Word := do
  let value := valueOf radix (← digits? radix text)
  if value < Word.bound then some (BitVec.ofNat 256 value) else none

end Numeral

namespace Amount

/-- The sum, unless it exceeds the greatest amount. -/
def checkedAdd (a b : Amount) : Except AmountFault Amount :=
  if a.toNat + b.toNat < Word.bound then .ok (a + b) else .error (.overflow a b)

/-- The difference, unless it is negative. -/
def checkedSub (a b : Amount) : Except AmountFault Amount :=
  if b.toNat ≤ a.toNat then .ok (a - b) else .error (.underflow a b)

/-- The amount itself, unless it is zero. -/
def requirePositive (a : Amount) : Except AmountFault Amount :=
  if a = 0 then .error .notPositive else .ok a

/-- The amount a text stands for: white space around it is ignored, `0x` announces hexadecimal
digits, and anything else is read as decimal digits. -/
def parse (text : String) : Except AmountFault Amount :=
  let read : Except NumeralFault Word :=
    match Text.trim text.toList with
    | '0' :: 'x' :: digits => Numeral.hexadecimal? (Bytes.utf8 (String.ofList digits))
    | digits => Numeral.decimal? (Bytes.utf8 (String.ofList digits))
  read.mapError (.malformed text)

theorem toNat_checkedAdd {a b c : Amount} (h : checkedAdd a b = .ok c) :
    c.toNat = a.toNat + b.toNat := by
  unfold checkedAdd at h
  split at h
  · rename_i fits
    cases h
    simp only [BitVec.toNat_add]
    exact Nat.mod_eq_of_lt fits
  · cases h

end Amount

end SlotLedger
