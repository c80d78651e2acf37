/-!
# Numbers in 64 bits of binary floating point

A `Binary64` is a sign and a magnitude word of 63 bits: 11 bits of exponent above 52 bits of
fraction. Within one sign the words are in the order of the numbers they stand for, the infinity
comes after every finite number and the NaNs after the infinity.

Every finite magnitude is a whole multiple of the smallest positive one, `2 ^ -1074`. `units`
gives that multiple, so all arithmetic here is exact arithmetic on natural numbers, followed by
one rounding to the nearest number (`ofRatio`; a tie goes to the even word). Nothing depends on
the machine's own arithmetic.
-/

namespace Keepsake

/-- How many words of 64 bits there are. -/
abbrev wordSpan : Nat := 0x10000000000000000

/-- How many words of 128 bits there are. -/
abbrev doubleWordSpan : Nat := 0x100000000000000000000000000000000

/-- The word whose only bit is the sign of a number. -/
abbrev signWord : Nat := 0x8000000000000000

/-- How many fractions there are to each exponent: 52 bits of them. -/
abbrev fractionSpan : Nat := 0x10000000000000

/-- A sign, and the 63 bits of exponent and fraction as one word. -/
structure Binary64 where
  negative : Bool
  magnitude : Nat
  magnitude_lt : magnitude < signWord := by decide
deriving DecidableEq

namespace Binary64

/-- The word of the infinity: all exponent bits, no fraction bit. -/
def infinityWord : Nat := 2047 * fractionSpan

/-- The smallest positive number is two to the minus this. -/
def unitExponent : Nat := 1074

/-- How many smallest positive numbers make one. -/
def unitsPerOne : Nat := Nat.pow 2 unitExponent

theorem infinityWord_lt : infinityWord < signWord := by decide

theorem unitsPerOne_pos : 0 < unitsPerOne := by
  unfold unitsPerOne
  generalize unitExponent = n
  exact Nat.two_pow_pos n

/-! ## Bit patterns -/

/-- The number with the given 64 bits. -/
def ofBits (b : UInt64) : Binary64 where
  negative := decide (signWord ≤ b.toNat)
  magnitude := b.toNat % signWord
  magnitude_lt := Nat.mod_lt _ (by decide)

/-- The 64 bits of a number. -/
def toBits (x : Binary64) : UInt64 :=
  UInt64.ofNat (x.magnitude + if x.negative then signWord else 0)

/-! ## Kinds of numbers -/

/-- Whether the word stands for no number at all. -/
def isNaN (x : Binary64) : Bool := decide (infinityWord < x.magnitude)

/-- Whether the word stands for a real number. -/
def isFinite (x : Binary64) : Bool := decide (x.magnitude < infinityWord)

/-- Whether the number is one of the two infinities. -/
def isInfinite (x : Binary64) : Bool := decide (x.magnitude = infinityWord)

/-- Whether the number is above zero (and a number). -/
def isPositive (x : Binary64) : Bool :=
  !x.negative && decide (0 < x.magnitude) && decide (x.magnitude ≤ infinityWord)

/-- Zero with a sign. -/
def zero (negative : Bool) : Binary64 := { negative, magnitude := 0 }

/-- The infinity with a sign. -/
def infinity (negative : Bool) : Binary64 := { negative, magnitude := infinityWord }

/-- The NaN that is written when a NaN is read. -/
def nan : Binary64 := { negative := false, magnitude := infinityWord + fractionSpan / 2 }

/-- The same stored content: equal words, or two NaNs. -/
def same (x y : Binary64) : Bool := decide (x = y) || (x.isNaN && y.isNaN)

@[simp]
theorem same_self (x : Binary64) : same x x = true := by simp [same]

theorem same_comm (x y : Binary64) : same x y = same y x := by
  unfold same
  rw [Bool.and_comm]
  congr 1
  exact decide_eq_decide.2 eq_comm

theorem same_trans {x y z : Binary64} (hxy : same x y = true) (hyz : same y z = true) :
    same x z = true := by
  simp only [same, Bool.or_eq_true, decide_eq_true_eq, Bool.and_eq_true] at *
  rcases hxy with rfl | ⟨hx, hy⟩
  · exact hyz
  · rcases hyz with rfl | ⟨_, hz⟩
    · exact Or.inr ⟨hx, hy⟩
    · exact Or.inr ⟨hx, hz⟩

/-! ## Exact values -/

/-- The magnitude of a finite number, counted in smallest positive numbers. -/
def units (x : Binary64) : Nat :=
  let exponent := x.magnitude / fractionSpan
  let fraction := x.magnitude % fractionSpan
  if exponent = 0 then fraction else (fractionSpan + fraction) * Nat.pow 2 (exponent - 1)

/-- The quotient of two natural numbers, to the nearest; a tie goes to the even neighbour. -/
def divNearest (num den : Nat) : Nat :=
  let q := num / den
  let r := num % den
  if 2 * r < den then q
  else if den < 2 * r then q + 1
  else if q % 2 = 0 then q else q + 1

/--
The word of the number nearest to `n / den` units.

With `k` the number of bits that `n / den` has beyond 53, a number nearby is a 53-bit multiple of
`2 ^ k`, and its word is that multiple plus `k` times `2 ^ 52`, also when rounding carries into
bit 53.
-/
def nearestWord (n den : Nat) : Nat :=
  let k := (n / den).log2 + 1 - 53
  min (k * fractionSpan + divNearest n (den * Nat.pow 2 k)) infinityWord

theorem nearestWord_lt (n den : Nat) : nearestWord n den < signWord :=
  Nat.lt_of_le_of_lt (Nat.min_le_right _ _) infinityWord_lt

/-- The number nearest to `num / den`; beyond the largest finite number it is the infinity. -/
def ofRatio (negative : Bool) (num den : Nat) : Binary64 where
  negative
  magnitude := nearestWord (num * unitsPerOne) den
  magnitude_lt := nearestWord_lt _ _

/-- The number nearest to a natural number. -/
def ofNat (n : Nat) : Binary64 := ofRatio false n 1

/-- The number nearest to an integer. -/
def ofInt (i : Int) : Binary64 := ofRatio (decide (i < 0)) i.natAbs 1

/-! ## Arithmetic on magnitudes -/

/-- The product of two finite magnitudes. -/
def mulAbs (x y : Binary64) : Binary64 :=
  ofRatio false (x.units * y.units) (unitsPerOne * unitsPerOne)

/-- The quotient of two finite magnitudes, the second not zero. -/
def divAbs (x y : Binary64) : Binary64 := ofRatio false x.units y.units

/-- The sum of two finite magnitudes. -/
def addAbs (x y : Binary64) : Binary64 := ofRatio false (x.units + y.units) unitsPerOne

end Binary64

end Keepsake
