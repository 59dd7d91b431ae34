import SlotLedger.Json.Basic

/-!
# JSON numerals

The parts of a numeral, and which numerals have a value.  A natural number below 2^64 is that
number.  Any other numeral stands for a double: it has a value unless the double would be infinite.

The double is found as follows.  Digits are taken from the left while their number stays below 2^64;
further digits of the integer part count as zeros and further ones of the fraction are dropped.  The
number taken and the power of ten it is scaled by are each rounded to a double and multiplied.
-/

namespace SlotLedger.Json

/-- The parts of a written number. -/
structure Numeral where
  negative : Bool
  integer : List Nat
  fraction : List Nat
  exponent : Int
  /-- Whether there is neither a fraction nor an exponent. -/
  isInteger : Bool

/-- A natural number rounded to 53 significant bits, ties to even. -/
def roundDouble (n : Nat) : Nat :=
  if n < Nat.pow 2 53 then
    n
  else
    let unit := Nat.pow 2 (Nat.log2 n - 52)
    let whole := n / unit
    let rest := n % unit
    if unit < 2 * rest ∨ (unit = 2 * rest ∧ whole % 2 = 1) then (whole + 1) * unit
    else whole * unit

/-- The least number that rounds to infinity. -/
def doubleLimit : Nat := Nat.pow 2 1024 - Nat.pow 2 970

/-- The greatest power of ten that is a finite double. -/
def maxPower : Nat := 308

/-- Take up a digit if the number stays below 2^64. -/
def takeDigit (significand d : Nat) : Option Nat :=
  if 10 * significand + d < UInt64.size then some (10 * significand + d) else none

/-- The number of the leading digits that fit, and how many digits are left. -/
def takeDigits (significand : Nat) : List Nat → Nat × Nat
  | [] => (significand, 0)
  | d :: rest =>
    match takeDigit significand d with
    | some next => takeDigits next rest
    | none => (significand, (d :: rest).length)

namespace Numeral

/-- The digits taken up and the power of ten they are scaled by. -/
def scaled (n : Numeral) : Nat × Int :=
  let (whole, dropped) := takeDigits 0 n.integer
  -- Once a digit has been dropped, a digit of the fraction can still be taken up if it fits.
  let (significand, unused) := takeDigits whole n.fraction
  (significand, dropped - (n.fraction.length - unused : Nat) + n.exponent)

/-- Whether the numeral's double is finite. -/
def isFinite (n : Numeral) : Bool :=
  let (significand, power) := n.scaled
  significand = 0 || power < 0 ||
    (power.toNat ≤ maxPower &&
      roundDouble significand * roundDouble (Nat.pow 10 power.toNat) < doubleLimit)

/-- The natural number below 2^64 that the numeral stands for. -/
def natural? (n : Numeral) : Option UInt64 :=
  let value := n.integer.foldl (fun value d => 10 * value + d) 0
  if n.isInteger ∧ ¬ n.negative ∧ value < UInt64.size then some (UInt64.ofNat value) else none

/-- The document of a numeral read from the start of `text` with `after` left over. -/
def document (n : Numeral) (text after : List Char) : Json :=
  match n.natural? with
  | some value => .natural value
  | none =>
    if n.isFinite then .real (String.ofList (text.take (text.length - after.length)))
    else .unreadable

end Numeral

end SlotLedger.Json
