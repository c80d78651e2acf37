import Keepsake.Proofs.Json.Literal
import Keepsake.Proofs.Number.Shortest
/-!
# Floats that JSON keeps

The reader scales a significand by a power of ten, with a rounding at each step, so it may miss the
nearest number. Where the digits of a literal are a number of 53 bits and the power of ten is at
most the twenty-second, both are exact, and the one rounding that is left is the nearest one. A
float whose literal is of this kind is read back as it was (`read_floatChars_of_exact`).
-/

namespace Keepsake

namespace Binary64

/-! ## Exact numbers -/

theorem ofRatio_zero (negative : Bool) (den : Nat) : ofRatio negative 0 den = zero negative := by
  have hword : nearestWord (0 * unitsPerOne) den = 0 := by
    rw [Nat.zero_mul]
    unfold nearestWord divNearest
    simp
  simp only [ofRatio, hword]
  rfl

theorem word_le_infinityWord {k m : Nat} (hk : k ≤ 1075) (hm : m < 2 * fractionSpan) :
    k * fractionSpan + m ≤ infinityWord := by
  have hexponent : k * fractionSpan ≤ 1075 * fractionSpan := Nat.mul_le_mul_right _ hk
  unfold infinityWord
  -- the span is no number to compute with here
  generalize fractionSpan = span at *
  omega

/-- Shifted to the left, a number of at most 53 bits fills the fraction. -/
theorem shifted_bounds {n : Nat} (hzero : n ≠ 0) (hn : n < 2 * fractionSpan) :
    fractionSpan ≤ n * Nat.pow 2 (52 - n.log2) ∧
      n * Nat.pow 2 (52 - n.log2) < 2 * fractionSpan := by
  have hlog : n.log2 < 53 := (Nat.log2_lt hzero).2 hn
  have hspan : Nat.pow 2 n.log2 * Nat.pow 2 (52 - n.log2) = fractionSpan :=
    calc Nat.pow 2 n.log2 * Nat.pow 2 (52 - n.log2)
        = Nat.pow 2 (n.log2 + (52 - n.log2)) := (Nat.pow_add 2 _ _).symm
      _ = fractionSpan := by rw [Nat.add_sub_cancel' (by omega)]
  have hpos : 0 < Nat.pow 2 (52 - n.log2) := Nat.two_pow_pos _
  have hbelow : n < 2 * Nat.pow 2 n.log2 := by
    rw [Nat.mul_comm]
    exact Nat.lt_log2_self
  constructor
  · calc fractionSpan = Nat.pow 2 n.log2 * Nat.pow 2 (52 - n.log2) := hspan.symm
      _ ≤ n * Nat.pow 2 (52 - n.log2) := Nat.mul_le_mul_right _ (Nat.log2_self_le hzero)
  · calc n * Nat.pow 2 (52 - n.log2)
        < 2 * Nat.pow 2 n.log2 * Nat.pow 2 (52 - n.log2) := Nat.mul_lt_mul_of_pos_right hbelow hpos
      _ = 2 * fractionSpan := by rw [Nat.mul_assoc, hspan]

theorem mul_unitsPerOne (n : Nat) {k : Nat} (hk : k ≤ 52) :
    n * unitsPerOne = n * Nat.pow 2 (52 - k) * Nat.pow 2 (1022 + k) := by
  have hexponent : 52 - k + (1022 + k) = unitExponent := by
    unfold unitExponent
    omega
  have hsplit : ∀ a b u, a + b = u → n * Nat.pow 2 u = n * Nat.pow 2 a * Nat.pow 2 b := by
    rintro a b _ rfl
    have hpow : Nat.pow 2 (a + b) = Nat.pow 2 a * Nat.pow 2 b := Nat.pow_add 2 a b
    rw [Nat.mul_assoc, hpow]
  unfold unitsPerOne
  exact hsplit _ _ _ hexponent

/-- A whole number of 53 bits is a float. -/
theorem units_ofNat {n : Nat} (hn : n < 2 * fractionSpan) :
    (ofNat n).units = n * unitsPerOne := by
  by_cases hzero : n = 0
  · subst hzero
    rw [ofNat, ofRatio_zero, Nat.zero_mul]
    rfl
  have hlog : n.log2 < 53 := (Nat.log2_lt hzero).2 hn
  obtain ⟨hlow, hhigh⟩ := shifted_bounds hzero hn
  have hunits := mul_unitsPerOne n (Nat.le_of_lt_succ hlog)
  have hword : (ofNat n).magnitude
      = (1022 + n.log2) * fractionSpan + n * Nat.pow 2 (52 - n.log2) := by
    show nearestWord (n * unitsPerOne) 1 = _
    rw [hunits, nearestWord_shifted hlow hhigh,
      Nat.min_eq_left (word_le_infinityWord (by omega) hhigh)]
  rw [units_of_magnitude hword (Nat.le_of_lt hhigh) (Or.inr hlow), hunits]

end Binary64

namespace Json

open Decimal (digitChars ofDigits)

/-! ## Exact scaling -/

/-- The first powers of ten are floats. -/
theorem Number.units_tenTo :
    ∀ n < 23, (tenTo n).units = Nat.pow 10 n * Binary64.unitsPerOne := by decide +kernel

/-- A decimal number that reading takes without loss: it fits 53 bits, and its power is a float. -/
def IsExact (d : Decimal) : Prop := d.digits < 2 * fractionSpan ∧ d.exponent.natAbs ≤ 22

instance (d : Decimal) : Decidable (IsExact d) := by
  unfold IsExact
  infer_instance

/-- Such a number is far from both ends of the range of floats. -/
theorem toBinary_of_isExact {d : Decimal} (h : IsExact d) : d.toBinary false =
    if 0 ≤ d.exponent then Binary64.ofRatio false (d.digits * Nat.pow 10 d.exponent.toNat) 1
    else Binary64.ofRatio false d.digits (Nat.pow 10 (-d.exponent).toNat) := by
  obtain ⟨hdigits, hexponent⟩ := h
  have hwidth : Decimal.width d.digits ≤ 16 := (Decimal.width_le_iff (by decide)).2
    (Nat.lt_trans hdigits (by decide))
  have hpos := Decimal.width_pos d.digits
  unfold Decimal.toBinary
  simp only []
  by_cases hzero : d.digits = 0
  · rw [if_pos (Or.inl hzero), hzero, Nat.zero_mul, Binary64.ofRatio_zero, Binary64.ofRatio_zero,
      ite_self]
  · rw [if_neg (by omega), if_neg (by omega)]

/-- Scaling has only the one rounding of its result. -/
theorem Number.scale_of_isExact {d : Decimal} (h : IsExact d)
    (hfinite : (d.toBinary false).isInfinite = false) :
    scale (Binary64.ofNat d.digits) d.exponent = some (d.toBinary false) := by
  have hunits := Binary64.units_ofNat h.1
  have hone : 0 < Binary64.unitsPerOne := Binary64.unitsPerOne_pos
  rw [scale]
  rw [toBinary_of_isExact h] at hfinite ⊢
  by_cases he : 0 ≤ d.exponent
  · have hproduct : (Binary64.ofNat d.digits).mulAbs (tenTo d.exponent.toNat)
        = Binary64.ofRatio false (d.digits * Nat.pow 10 d.exponent.toNat) 1 := by
      have hsame : d.digits * Binary64.unitsPerOne
          * (Nat.pow 10 d.exponent.toNat * Binary64.unitsPerOne)
          = d.digits * Nat.pow 10 d.exponent.toNat
            * (Binary64.unitsPerOne * Binary64.unitsPerOne) := Nat.mul_mul_mul_comm ..
      rw [Binary64.mulAbs, hunits, units_tenTo _ (by have := h.2; omega), hsame,
        ← Binary64.ofRatio_mul false (d.digits * _) 1 (Nat.mul_pos hone hone), Nat.one_mul]
    have hlow : ¬308 < d.exponent := by
      have := h.2
      omega
    simp only [if_pos he] at hfinite ⊢
    simp only [if_neg hlow, hproduct, hfinite]
    rfl
  · have hquotient : (Binary64.ofNat d.digits).divAbs (tenTo (-d.exponent).toNat)
        = Binary64.ofRatio false d.digits (Nat.pow 10 (-d.exponent).toNat) := by
      rw [Binary64.divAbs, hunits, units_tenTo _ (by have := h.2; omega),
        Binary64.ofRatio_mul _ _ _ hone]
    have hhigh : -308 ≤ d.exponent := by
      have := h.2
      omega
    simp only [if_neg he, if_pos hhigh, hquotient]

/-! ## Literals of floats -/

namespace Literal

/-- Zeros in front of digits are nothing. -/
theorem ofDigits_leadingZeros (k : Nat) (ds : List Char) :
    ofDigits 0 ('0' :: (Layout.zeros k ++ ds)) = ofDigits 0 ds := by
  have hzeros : ofDigits 0 ('0' :: Layout.zeros k) = 0 := by
    show ofDigits 0 (List.replicate (k + 1) '0') = 0
    rw [Decimal.ofDigits_zeros, Nat.zero_mul]
  rw [← List.cons_append, Decimal.ofDigits_append, hzeros]

/-- A whole number in place gets zeros behind its digits; else a literal is what it was made of. -/
theorem Laid.value_eq {d : Decimal} {l : Literal} (h : Laid d l) (hne : d.digits ≠ 0) :
    l.value = d ∨ ∃ k : Nat, d.exponent = k ∧ l.value = ⟨d.digits * Nat.pow 10 (k + 1), -1⟩ := by
  have hdigits : ofDigits 0 (digitChars d.digits) = d.digits := Decimal.ofDigits_digitChars _
  have hwidth : 0 < (digitChars d.digits).length := Decimal.width_pos _
  cases h with
  | zero hzero => exact absurd hzero hne
  | behind k _ _ hpoint =>
    left
    have hexponent : (0 : Int) - (Layout.zeros k ++ digitChars d.digits).length = d.exponent := by
      simp only [Layout.zeros, List.length_append, List.length_replicate]
      omega
    simp only [value, Option.getD_none, List.singleton_append, ofDigits_leadingZeros, hdigits,
      hexponent]
  | before k _ hk =>
    right
    have hrow : digitChars d.digits ++ Layout.zeros k ++ ['0']
        = digitChars d.digits ++ List.replicate (k + 1) '0' := by
      rw [List.replicate_succ', ← List.append_assoc]
      rfl
    refine ⟨k, hk, ?_⟩
    simp only [value, hrow, Decimal.ofDigits_append, hdigits, Decimal.ofDigits_zeros]
    rfl
  | around p _ _ _ hp =>
    left
    have hexponent : (0 : Int) - ((digitChars d.digits).drop p).length = d.exponent := by
      rw [List.length_drop]
      omega
    simp only [value, List.take_append_drop, hdigits, Option.getD_none, hexponent]
  | scaled _ =>
    left
    have hexponent : d.exponent + (digitChars d.digits).length - 1
        - (((digitChars d.digits).drop 1).length : Int) = d.exponent := by
      rw [List.length_drop]
      omega
    simp only [value, List.take_append_drop, hdigits, Option.getD_some, hexponent]

/-- Not many more digits stand after the point than there are. -/
theorem Laid.length_fraction_le {d : Decimal} {l : Literal} (h : Laid d l) :
    l.fraction.length ≤ (digitChars d.digits).length + 4 := by
  have hwidth : 0 < (digitChars d.digits).length := Decimal.width_pos _
  cases h with
  | zero _ => exact Nat.le_add_right_of_le hwidth
  | behind k _ _ _ =>
    simp only [Layout.zeros, List.length_append, List.length_replicate]
    omega
  | before k _ _ => exact Nat.le_add_right_of_le hwidth
  | around p _ _ _ _ =>
    rw [List.length_drop]
    omega
  | scaled _ =>
    rw [List.length_drop]
    omega

/-- A literal rounds to what the number rounds to that it was laid out of. -/
theorem Laid.toBinary_value {d : Decimal} {l : Literal} (h : Laid d l) :
    l.value.toBinary false = d.toBinary false := by
  by_cases hne : d.digits = 0
  · have hzero : l.value.digits = 0 := by
      cases h with
      | zero _ => decide
      | _ => contradiction
    simp [Decimal.toBinary, hne, hzero]
  rcases h.value_eq hne with heq | ⟨k, hk, heq⟩
  · rw [heq]
  · have hexponent : (-1 : Int) + (k + 1 : Nat) = k := by omega
    obtain ⟨n, e⟩ := d
    rw [heq, Decimal.toBinary_shift, hexponent, ← hk]

/-- An exponent that leaves an exact number was written short. -/
theorem Laid.written_lt {d : Decimal} {l : Literal} (h : Laid d l) (hexact : IsExact l.value) :
    (l.written.getD 0).natAbs < 0x80000000 := by
  have hdigits : d.digits ≤ l.value.digits := by
    by_cases hne : d.digits = 0
    · rw [hne]
      exact Nat.zero_le _
    rcases h.value_eq hne with heq | ⟨k, -, heq⟩
    · exact Nat.le_of_eq (congrArg Decimal.digits heq.symm)
    · rw [heq]
      exact Nat.le_mul_of_pos_right _ (Nat.pow_pos (by decide))
  have hwidth : (digitChars d.digits).length ≤ 16 := (Decimal.width_le_iff (by decide)).2
    (Nat.lt_of_le_of_lt hdigits (Nat.lt_trans hexact.1 (by decide)))
  have hlength := h.length_fraction_le
  have hexponent : l.value.exponent = l.written.getD 0 - l.fraction.length := rfl
  have hsmall := hexact.2
  omega

end Literal

/-! ## Floats read back -/

/-- A float is read back as it was if its literal can be taken without loss. -/
theorem read_floatChars_of_exact {x : Binary64} (hx : x.isFinite = true)
    (h : IsExact (literalOf x).value) : Number.read (floatChars x) = some (.float x) := by
  have hlaid : Literal.Laid (x.shortest .even) (literalOf x) := Literal.laid_ofDecimal _
  obtain ⟨significand, shift, hread, hvalue⟩ := read_floatChars hx
  obtain ⟨hsignificand, hshift⟩ := hvalue (Nat.lt_trans h.1 (by decide))
  have hexponent : shift + (literalOf x).written.getD 0 = (literalOf x).value.exponent := by
    have heq : (literalOf x).value.exponent
      = (literalOf x).written.getD 0 - (literalOf x).fraction.length := rfl
    omega
  -- what is read is the nearest float to the digits, which is the one that was written
  have hnearest : ((literalOf x).value.toBinary false).magnitude = x.magnitude := by
    rw [hlaid.toBinary_value, Binary64.toBinary_shortest hx]
  have hfinite : ((literalOf x).value.toBinary false).isInfinite = false := by
    rw [Binary64.isInfinite, hnearest]
    exact (Binary64.kinds_of_isFinite hx).2
  have hassemble : Number.assemble significand shift ((literalOf x).written.getD 0)
      = some ((literalOf x).value.toBinary false) := by
    rw [Number.assemble, if_neg (Nat.not_le_of_lt (hlaid.written_lt h)), hexponent, hsignificand,
      Number.scale_of_isExact h hfinite]
  rw [hread, hassemble, Option.map_some]
  congr 2
  obtain ⟨negative, magnitude, hlt⟩ := x
  simp only [Binary64.mk.injEq, true_and]
  exact hnearest

end Json

end Keepsake
