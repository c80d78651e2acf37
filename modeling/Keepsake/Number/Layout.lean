import Keepsake.Number.Shortest
/-!
# Layout of written numbers

The digits of a number are fixed by `Binary64.shortest`; a `Layout` says how they are arranged:
from where to where the point is written in its place and beyond which bounds an exponent is used,
whether a whole number keeps a `.0`, and how the values that are no digits are spelt.
-/

namespace Keepsake

/-- How the digits of a number are arranged. -/
structure Layout where
  /-- the point stands in its place if it comes after more than this many digits of the number -/
  lowest : Int
  /-- and after at most this many; beyond both bounds an exponent is written -/
  highest : Int
  /-- a whole number in place keeps `.0` -/
  keepPoint : Bool
  /-- an exponent that is not negative has a plus sign -/
  plusSign : Bool
  tie : Tie
  nan : String
  infinity : String

namespace Layout

/-- A row of zeros. -/
def zeros (n : Nat) : List Char := List.replicate n '0'

/-- Digits with the point in its place, after `point` of them. -/
def positional (keepPoint : Bool) (ds : List Char) (point : Int) : List Char :=
  if point ≤ 0 then '0' :: '.' :: (zeros (-point).toNat ++ ds)
  else
    let p := point.toNat
    if ds.length ≤ p then
      ds ++ zeros (p - ds.length) ++ (if keepPoint then ['.', '0'] else [])
    else ds.take p ++ '.' :: ds.drop p

/-- One digit, the others after a point, and the exponent. -/
def scientific (plusSign : Bool) (ds : List Char) (exponent : Int) : List Char :=
  let mantissa := match ds with
    | [] => []
    | [d] => [d]
    | d :: more => d :: '.' :: more
  let sign := if exponent < 0 then ['-'] else if plusSign then ['+'] else []
  mantissa ++ 'e' :: (sign ++ Decimal.digitChars exponent.natAbs)

/-- The magnitude of a finite number as laid out. -/
def magnitudeChars (l : Layout) (x : Binary64) : List Char :=
  let d := x.shortest l.tie
  if d.digits = 0 then '0' :: (if l.keepPoint then ['.', '0'] else [])
  else
    let ds := Decimal.digitChars d.digits
    let point := d.exponent + ds.length
    if l.lowest < point ∧ point ≤ l.highest then positional l.keepPoint ds point
    else scientific l.plusSign ds (point - 1)

/-- The written form of a number. -/
def chars (l : Layout) (x : Binary64) : List Char :=
  if x.isNaN then l.nan.toList
  else
    let body := if x.isInfinite then l.infinity.toList else l.magnitudeChars x
    if x.negative then '-' :: body else body

/-- The written form of a number, as a string. -/
def render (l : Layout) (x : Binary64) : String := String.ofList (l.chars x)

/-- Numbers shown on their own: never an exponent, and a whole number without point. -/
def plain : Layout where
  lowest := -100000
  highest := 100000
  keepPoint := false
  plusSign := false
  tie := .up
  nan := "NaN"
  infinity := "inf"

/-- Numbers shown inside a list: an exponent from `1e16` up and below `1e-4`. -/
def inList : Layout where
  lowest := -4
  highest := 16
  keepPoint := true
  plusSign := false
  tie := .up
  nan := "NaN"
  infinity := "inf"

end Layout

/--
A ratio with a fixed number of decimal places, rounded to the nearest; a tie goes to the even
digit.
-/
def fixedPlaces (places num den : Nat) : String :=
  let ds := Decimal.digitChars (Binary64.divNearest (num * Nat.pow 10 places) den)
  let padded := Layout.zeros (places + 1 - ds.length) ++ ds
  let whole := padded.take (padded.length - places)
  if places = 0 then String.ofList whole
  else String.ofList (whole ++ '.' :: padded.drop (padded.length - places))

end Keepsake
