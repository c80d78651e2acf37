import Keepsake.Number.Whole
/-!
# JSON numbers

Grammar: an optional minus, a whole part without superfluous leading zero, an optional fraction, an
optional exponent.

An integer that fits 64 bits, signed or not, is read exactly. Any other number is a float, and its
reading is not always the nearest one: digits are taken into a 64-bit significand while it does
not overflow, the others only move the point, and the significand is then multiplied or divided by
a power of ten, with one rounding at each step. Too large a number is refused; one too small is
zero.
-/

namespace Keepsake.Json

namespace Number

/-! ## Significand and scale -/

/--
Takes digits into a significand as long as it fits a word; gives the significand and the number
of digits from the first one left out on.
-/
def absorb (significand : Nat) : List Char → Nat × Nat
  | [] => (significand, 0)
  | d :: ds =>
    let next := 10 * significand + Decimal.digitValue d
    if next < wordSpan then absorb next ds else (significand, ds.length + 1)

/-- The power of ten as a float. -/
def tenTo (n : Nat) : Binary64 := Decimal.toBinary false ⟨1, n⟩

/-- Multiplies a float by `10 ^ exponent`; `none` if the result is too large. -/
def scale (x : Binary64) (exponent : Int) : Option Binary64 :=
  if 0 ≤ exponent then
    if 308 < exponent then if x.magnitude = 0 then some x else none
    else
      let y := x.mulAbs (tenTo exponent.toNat)
      if y.isInfinite then none else some y
  else if -308 ≤ exponent then some (x.divAbs (tenTo (-exponent).toNat))
  else if x.magnitude = 0 then some x
  else scale (x.divAbs (tenTo 308)) (exponent + 308)
termination_by (-exponent).toNat
decreasing_by omega

/-! ## Reading -/

/-- The exponent part: nothing, or `e`, an optional sign, and at least one digit. -/
def readExponent : List Char → Option (Option Int)
  | [] => some none
  | c :: rest =>
    if c = 'e' ∨ c = 'E' then
      let (negative, ds) := match rest with
        | '-' :: ds => (true, ds)
        | '+' :: ds => (false, ds)
        | ds => (false, ds)
      if ds.isEmpty ∨ !ds.all Char.isDigit then none
      else
        let n : Int := Decimal.ofDigits 0 ds
        some (some (if negative then -n else n))
    else none

/-- The float for a significand, the exponent its digits leave, and the exponent written. -/
def assemble (significand : Nat) (shift : Int) (written : Int) : Option Binary64 :=
  if 0x80000000 ≤ written.natAbs then
    if significand ≠ 0 ∧ 0 < written then none else some (Binary64.zero false)
  else scale (Binary64.ofNat significand) (shift + written)

/-- The integer or float for a whole part that fits 64 bits. -/
def ofSignificand (negative : Bool) (significand : Nat) : Number :=
  match Whole.ofInt? (if negative then -(significand : Int) else significand) with
  | some w => if negative ∧ significand = 0 then .float (Binary64.zero true) else .whole w
  | none => .float { Binary64.ofNat significand with negative }

/-- Reads a number without its sign. -/
def readUnsigned (negative : Bool) (cs : List Char) : Option Number :=
  let whole := cs.takeWhile Char.isDigit
  let rest := cs.dropWhile Char.isDigit
  if whole.isEmpty ∨ (whole.head? = some '0' ∧ whole.length ≠ 1) then none
  else
    let (significand, dropped) := absorb 0 whole
    match rest with
    | '.' :: more =>
      let fraction := more.takeWhile Char.isDigit
      if fraction.isEmpty then none
      else do
        let (significand, left) := absorb significand fraction
        let shift : Int := dropped - (fraction.length - left : Nat)
        let written ← readExponent (more.dropWhile Char.isDigit)
        let x ← assemble significand shift (written.getD 0)
        some (.float { x with negative })
    | _ => do
      match ← readExponent rest with
      | none =>
        if dropped = 0 then some (ofSignificand negative significand)
        else do
          let x ← assemble significand dropped 0
          some (.float { x with negative })
      | some written => do
        let x ← assemble significand dropped written
        some (.float { x with negative })

/-- Reads a number. -/
def read : List Char → Option Number
  | '-' :: cs => readUnsigned true cs
  | cs => readUnsigned false cs

end Number

end Keepsake.Json
