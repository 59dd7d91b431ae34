import SlotLedger.Bytes
import SlotLedger.Json.Escape

/-!
# How far a scalar reaches

A reader that takes a scalar from a text stops somewhere, whether it has found a scalar or has met
an octet that cannot be part of one.  This module says where.  An octet that has to be of a certain
kind is taken before it is looked at, so it is gone when it turns out to be another one; an octet
that may also end the scalar is looked at first and stays.

## Main definitions

* `afterString`, `afterNumber`, `afterWord`: the octets behind a string, a number or a word.
* `afterScalar`: the octets behind any scalar.
-/

namespace SlotLedger.Json

/-- Whether an octet is the one of a character. -/
def isOctet (c : Char) (b : UInt8) : Bool := b.toNat == c.toNat

/-! ## Words -/

/-- What is left when a text was compared with a word; the octet that differs is taken, too. -/
def afterWord : (word : Bytes) → Bytes → Bytes
  | [], text => text
  | _, [] => []
  | w :: word, b :: rest => if b = w then afterWord word rest else rest

/-! ## Numbers -/

/-- Whether an octet is a decimal digit. -/
def isDigitOctet (b : UInt8) : Bool := 0x30 ≤ b && b ≤ 0x39

/-- The greatest exponent that is told apart from greater ones. -/
def maxExponent : Nat := 2147483647

/-- What is left after the digits of an exponent.  If the number would be too large, reading stops
at the digit that takes the exponent above its greatest value. -/
def afterPower (tooLarge : Bool) (exponent : Nat) : Bytes → Bytes
  | [] => []
  | b :: rest =>
    if isDigitOctet b then
      let exponent := 10 * exponent + (b.toNat - 0x30)
      if tooLarge && maxExponent < exponent then rest else afterPower tooLarge exponent rest
    else b :: rest

/-- What is left after the digits of an exponent, of which there has to be one. -/
def afterExponent (tooLarge : Bool) : Bytes → Bytes
  | [] => []
  | b :: rest => if isDigitOctet b then afterPower tooLarge 0 (b :: rest) else rest

/-- What is left after the part of a number behind its exponent mark. -/
def afterMark (isZero : Bool) : Bytes → Bytes
  | [] => []
  | b :: rest =>
    if isOctet '-' b then afterExponent false rest
    else if isOctet '+' b then afterExponent (!isZero) rest
    else afterExponent (!isZero) (b :: rest)

/-- What is left after the exponent of a number, if it has one. -/
def afterDigits (isZero : Bool) : Bytes → Bytes
  | [] => []
  | b :: rest => if isOctet 'e' b || isOctet 'E' b then afterMark isZero rest else b :: rest

/-- What is left after the fraction and the exponent of a number. -/
def afterInteger (isZero : Bool) : Bytes → Bytes
  | [] => []
  | b :: rest =>
    if isOctet '.' b then
      let digits := rest.takeWhile isDigitOctet
      if digits.isEmpty then rest
      else afterDigits (isZero && digits.all (isOctet '0')) (rest.dropWhile isDigitOctet)
    else afterDigits isZero (b :: rest)

/-- What is left after a number without its sign. -/
def afterNumber : Bytes → Bytes
  | [] => []
  | b :: rest =>
    if isOctet '0' b then
      -- No digit can follow a zero; if one does, reading stops in front of it.
      if rest.head?.any isDigitOctet then rest else afterInteger true rest
    else if isDigitOctet b then afterInteger false (rest.dropWhile isDigitOctet)
    else rest

/-! ## Strings -/

/-- The code unit of four octets that are hexadecimal digits. -/
def unitOfOctets? : Bytes → Option Nat
  | [a, b, c, d] =>
    codeUnit? (Char.ofNat a.toNat) (Char.ofNat b.toNat) (Char.ofNat c.toNat) (Char.ofNat d.toNat)
  | _ => none

/-- What is left after the escape of a trailing surrogate, and whether it is one. -/
def afterTrailing : Bytes → Bytes × Bool
  | [] => ([], false)
  | [_] => ([], false)
  | a :: b :: rest =>
    if !isOctet '\\' a then (b :: rest, false)
    else if !isOctet 'u' b then (rest, false)
    else (rest.drop 4, (unitOfOctets? (rest.take 4)).any isTrailing)

/-- What is left after the digits of an escaped code unit, and whether a string can go on there. -/
def afterUnit (text : Bytes) : Bytes × Bool :=
  let rest := text.drop 4
  match unitOfOctets? (text.take 4) with
  | none => (rest, false)
  | some unit =>
    if isTrailing unit then (rest, false)
    else if isLeading unit then afterTrailing rest
    else (rest, true)

/-- What is left after an escape behind its backslash, and whether a string can go on there. -/
def afterEscape : Bytes → Bytes × Bool
  | [] => ([], false)
  | b :: rest =>
    if isOctet 'u' b then afterUnit rest
    else (rest, (simpleEscape? (Char.ofNat b.toNat)).isSome)

/-- What is left after at most `fuel` parts of a string and its closing quote. -/
def afterParts : (fuel : Nat) → Bytes → Bytes
  | 0, text => text
  | _, [] => []
  | fuel + 1, b :: rest =>
    if isOctet '"' b then rest
    else if isOctet '\\' b then
      let (after, more) := afterEscape rest
      if more then afterParts fuel after else after
    else if b < 0x20 then rest
    else afterParts fuel rest

/-- What is left after a string behind its opening quote. -/
def afterString (text : Bytes) : Bytes := afterParts text.length text

/-! ## Scalars -/

/-- What is left after a scalar.  Nothing is taken where none begins. -/
def afterScalar : Bytes → Bytes
  | [] => []
  | b :: rest =>
    if isOctet '"' b then afterString rest
    else if isOctet '-' b then afterNumber rest
    else if isDigitOctet b then afterNumber (b :: rest)
    else if isOctet 'n' b then afterWord (Bytes.utf8 "ull") rest
    else if isOctet 't' b then afterWord (Bytes.utf8 "rue") rest
    else if isOctet 'f' b then afterWord (Bytes.utf8 "alse") rest
    else b :: rest

end SlotLedger.Json
