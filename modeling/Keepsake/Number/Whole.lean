import Keepsake.Number.Decimal
/-!
# Whole numbers and floats

A `Whole` is an integer of 64 signed bits. A `Number` is what a text notation of a number gives: a
whole number where it fits, a float otherwise.
-/

namespace Keepsake

/-- Whether an integer has a place among those of 64 signed bits. -/
abbrev FitsWord (i : Int) : Prop := -0x8000000000000000 ≤ i ∧ i < 0x8000000000000000

/-- A 64-bit signed integer. -/
abbrev Whole := { i : Int // FitsWord i }

namespace Whole

/-- The integer, if it fits 64 bits. -/
def ofInt? (i : Int) : Option Whole :=
  if h : FitsWord i then some ⟨i, h⟩ else none

/-- Nearest float of an integer. -/
def toBinary (w : Whole) : Binary64 := Binary64.ofInt w.1

/-- The decimal digits of an integer, with a sign if negative. -/
def chars (w : Whole) : List Char :=
  if w.1 < 0 then '-' :: Decimal.digitChars w.1.natAbs else Decimal.digitChars w.1.natAbs

/-- The decimal text of an integer. -/
def text (w : Whole) : String := String.ofList w.chars

end Whole

/-- A number as read from its notation. -/
inductive Number where
  | whole (w : Whole)
  | float (x : Binary64)
deriving DecidableEq

namespace Number

/-- The number as a float. -/
def toFloat : Number → Binary64
  | whole w => w.toBinary
  | float x => x

/-- The integer, if the number is one. -/
def toWhole? : Number → Option Whole
  | whole w => some w
  | float _ => none

end Number

end Keepsake
