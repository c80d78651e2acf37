import Keepsake.Number.Layout
/-!
# Sizes of files as shown

A size is shown in the greatest unit of which it has one: bytes as they are, all others with one
decimal place.
-/

namespace Keepsake.CommandLine

/-- The units of size, each 1024 times the one before. -/
def sizeUnits : List String := ["B", "KB", "MB", "GB", "TB"]

/--
The place of the unit in which a size is shown, among those from place `unit` on; `more` follow
it.
-/
def unitOf (bytes unit : Nat) : Nat → Nat
  | 0 => unit
  | more + 1 => if Nat.pow 1024 (unit + 1) ≤ bytes then unitOf bytes (unit + 1) more else unit

/-- A size as shown. -/
def sizeText (bytes : Nat) : String :=
  let unit := unitOf bytes 0 (sizeUnits.length - 1)
  let amount := if unit = 0 then Decimal.text bytes else fixedPlaces 1 bytes (Nat.pow 1024 unit)
  amount ++ " " ++ sizeUnits.getD unit ""

end Keepsake.CommandLine
