import Keepsake.Number.Binary64
/-!
# Decimal numbers

A `Decimal` is a whole number of powers of ten. This module reads one from its notation and rounds
it to the nearest binary number; the fewest digits that stand for a binary number are in
`Number.Shortest`.

Notation: digits with at most one point among, before or after them, then optionally `e` or `E`, a
sign and digits. Leading zeros are allowed.
-/

namespace Keepsake

/-- The number `digits * 10 ^ exponent`. -/
structure Decimal where
  digits : Nat
  exponent : Int
deriving DecidableEq, Repr

namespace Decimal

/-! ## Digits -/

/-- The value of a digit below ten. -/
def digitValue (c : Char) : Nat := c.toNat - '0'.toNat

/-- The number that a row of digits stands for, read after the digits of `start`. -/
def ofDigits (start : Nat) (ds : List Char) : Nat :=
  ds.foldl (fun n c => 10 * n + digitValue c) start

/-- The digits of a natural number, the most significant first. -/
def digitChars (n : Nat) : List Char := Nat.toDigits 10 n

/-- The decimal text of a natural number. -/
def text (n : Nat) : String := String.ofList (digitChars n)

/-- How many digits a natural number has. -/
def width (n : Nat) : Nat := (digitChars n).length

/-- Reads a count below `limit`: digits, with a plus sign or not. -/
def readCount (limit : Nat) (cs : List Char) : Option Nat :=
  let ds := match cs with
    | '+' :: ds => ds
    | ds => ds
  if ds.isEmpty ∨ !ds.all Char.isDigit then none
  else
    let n := ofDigits 0 ds
    if n < limit then some n else none

/-! ## Rounding to binary -/

/--
The binary number nearest to a decimal one.

Below `10 ^ -330` everything rounds to zero and from `10 ^ 310` up to the infinity, so powers of ten
beyond these are never computed.
-/
def toBinary (negative : Bool) (d : Decimal) : Binary64 :=
  let top := d.exponent + width d.digits
  if d.digits = 0 ∨ top < -330 then Binary64.zero negative
  else if 310 < top then Binary64.infinity negative
  else if 0 ≤ d.exponent then Binary64.ofRatio negative (d.digits * Nat.pow 10 d.exponent.toNat) 1
  else Binary64.ofRatio negative d.digits (Nat.pow 10 (-d.exponent).toNat)

/-! ## Notation -/

/-- Reads an exponent: nothing, or `e`, an optional sign and at least one digit. -/
def readExponent : List Char → Option Int
  | [] => some 0
  | c :: rest =>
    if c ≠ 'e' ∧ c ≠ 'E' then none
    else
      let (negative, ds) := match rest with
        | '-' :: ds => (true, ds)
        | '+' :: ds => (false, ds)
        | ds => (false, ds)
      if ds.isEmpty ∨ !ds.all Char.isDigit then none
      else
        let n : Int := ofDigits 0 ds
        some (if negative then -n else n)

/-- Reads an unsigned decimal number; there is a digit before or after the point. -/
def readUnsigned (cs : List Char) : Option Decimal :=
  let whole := cs.takeWhile Char.isDigit
  let rest := cs.dropWhile Char.isDigit
  let (fraction, tail) := match rest with
    | '.' :: more => (more.takeWhile Char.isDigit, more.dropWhile Char.isDigit)
    | other => ([], other)
  if whole.isEmpty ∧ fraction.isEmpty then none
  else (readExponent tail).map fun e =>
    ⟨ofDigits (ofDigits 0 whole) fraction, e - fraction.length⟩

/-- Reads a decimal number with an optional sign as the nearest binary number. -/
def readBinary (cs : List Char) : Option Binary64 :=
  match cs with
  | '-' :: rest => (readUnsigned rest).map (toBinary true)
  | '+' :: rest => (readUnsigned rest).map (toBinary false)
  | _ => (readUnsigned cs).map (toBinary false)

end Decimal

end Keepsake
