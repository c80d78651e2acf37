import Keepsake.Number.Decimal
/-!
# The fewest digits that read back

The digits written for a binary number are the fewest that read back as that same number. The
search walks the decimal grids from coarse to fine. On each grid only the two neighbours of the
number can read back; the first grid on which one does gives the digits. If both do, the nearer is
taken, and an exact tie is settled by the caller.

Termination: the grid index counts down a fixed number of grids. Past the last one the number is
written out exactly, which a multiple of `2 ^ -1074` always can be.
-/

namespace Keepsake

/-- Which of two equally near digit rows is written. -/
inductive Tie where
  /-- the one with an even last digit -/
  | even
  /-- the greater one -/
  | up
deriving DecidableEq

namespace Binary64

/-- Whether a decimal number reads back as `x`, signs apart. -/
def isReadFrom (x : Binary64) (d : Decimal) : Bool :=
  decide ((d.toBinary false).magnitude = x.magnitude)

/-- The quotient `units / 10 ^ exponent` in ones, as numerator and denominator. -/
def onGrid (x : Binary64) (exponent : Int) : Nat × Nat :=
  if 0 ≤ exponent then (x.units, unitsPerOne * Nat.pow 10 exponent.toNat)
  else (x.units * Nat.pow 10 (-exponent).toNat, unitsPerOne)

/-- The neighbour of `x` on the grid of `10 ^ exponent` that reads back as `x`, if one does. -/
def gridNeighbour? (x : Binary64) (tie : Tie) (exponent : Int) : Option Decimal :=
  let (num, den) := x.onGrid exponent
  let below : Decimal := ⟨num / den, exponent⟩
  let above : Decimal := ⟨num / den + 1, exponent⟩
  let rest := num % den
  match x.isReadFrom below, x.isReadFrom above with
  | false, false => none
  | true, false => some below
  | false, true => some above
  | true, true =>
    if 2 * rest < den then some below
    else if den < 2 * rest then some above
    else match tie with
      | .up => some above
      | .even => some (if below.digits % 2 = 0 then below else above)

/-- The first of `count` grids, from `exponent` down, with a neighbour that reads back. -/
def searchGrids (x : Binary64) (tie : Tie) (exponent : Int) : Nat → Decimal
  | 0 => ⟨x.units * Nat.pow 5 unitExponent, -unitExponent⟩
  | count + 1 => match x.gridNeighbour? tie exponent with
    | some d => d
    | none => searchGrids x tie (exponent - 1) count

/-- A power of ten at or above a finite number: `2 ^ b ≤ 10 ^ (b * 30103 / 100000 + 1)`. -/
def topExponent (x : Binary64) : Int :=
  ((x.units.log2 : Int) + 1 - unitExponent) * 30103 / 100000 + 1

/-- Takes the trailing zeros of the digits into the exponent. -/
def stripZeros (d : Decimal) : Decimal :=
  if h : d.digits ≠ 0 ∧ d.digits % 10 = 0 then stripZeros ⟨d.digits / 10, d.exponent + 1⟩ else d
termination_by d.digits
decreasing_by exact Nat.div_lt_self (Nat.pos_of_ne_zero h.1) (by decide)

/-- The fewest digits that read back as the finite number `x`, its sign apart. -/
def shortest (tie : Tie) (x : Binary64) : Decimal :=
  if x.magnitude = 0 then ⟨0, 0⟩ else stripZeros (x.searchGrids tie x.topExponent 22)

end Binary64

end Keepsake
