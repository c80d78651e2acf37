import Keepsake.Number.Shortest
import Keepsake.Proofs.Number.Digits
import Keepsake.Proofs.Number.Rounding
/-!
# The fewest digits are read back

The digits that are written for a finite number round to this very number (`toBinary_shortest`):
every grid is searched for such digits, zeros at the end move into the exponent without changing
the value, and the number written out exactly, past the last grid, is its own rounding.
-/

namespace Keepsake

namespace Decimal

/-! ## Zeros at the end -/

theorem width_mul_ten {n : Nat} (hn : n ≠ 0) : width (10 * n) = width n + 1 := by
  have hdigits : digitChars n ++ Nat.toDigits 10 0 = digitChars (10 * n + 0) :=
    Nat.toDigits_append_toDigits (by decide) (Nat.pos_of_ne_zero hn) (by decide)
  rw [Nat.add_zero] at hdigits
  rw [width, ← hdigits, List.length_append]
  rfl

/-- A zero at the end of the digits may as well stand in the exponent. -/
theorem toBinary_ten (negative : Bool) (n : Nat) (e : Int) :
    toBinary negative ⟨10 * n, e⟩ = toBinary negative ⟨n, e + 1⟩ := by
  by_cases hn : n = 0
  · subst hn
    simp [toBinary]
  have hten : 10 * n ≠ 0 := by omega
  -- both notations have their first digit in the same place, so the same bounds apply
  have htop : e + width (10 * n) = e + 1 + width n := by
    rw [width_mul_ten hn]
    omega
  unfold toBinary
  simp only [htop, hn, hten, false_or]
  by_cases hlow : e + 1 + width n < -330
  · rw [if_pos hlow, if_pos hlow]
  rw [if_neg hlow, if_neg hlow]
  by_cases hhigh : 310 < e + 1 + width n
  · rw [if_pos hhigh, if_pos hhigh]
  rw [if_neg hhigh, if_neg hhigh]
  by_cases he : 0 ≤ e
  · have hnext : 10 * n * Nat.pow 10 e.toNat = n * Nat.pow 10 (e + 1).toNat := by
      have hexponent : (e + 1).toNat = e.toNat + 1 := by omega
      have hpow : Nat.pow 10 (e.toNat + 1) = Nat.pow 10 e.toNat * 10 := rfl
      rw [hexponent, hpow, Nat.mul_comm 10 n, Nat.mul_assoc, Nat.mul_comm 10]
    rw [if_pos he, if_pos (by omega), hnext]
  · have hpow : Nat.pow 10 (-e).toNat = Nat.pow 10 (-(e + 1)).toNat * 10 := by
      have hexponent : (-e).toNat = (-(e + 1)).toNat + 1 := by omega
      rw [hexponent]
      rfl
    rw [if_neg he, hpow, Nat.mul_comm 10 n, Binary64.ofRatio_mul _ _ _ (by decide)]
    by_cases hlast : 0 ≤ e + 1
    · have hzero : (e + 1).toNat = 0 ∧ (-(e + 1)).toNat = 0 := by omega
      have hone : Nat.pow 10 0 = 1 := rfl
      rw [if_pos hlast, hzero.1, hzero.2, hone, Nat.mul_one]
    · rw [if_neg hlast]

theorem toBinary_shift (negative : Bool) (n : Nat) (e : Int) (k : Nat) :
    toBinary negative ⟨n * Nat.pow 10 k, e⟩ = toBinary negative ⟨n, e + k⟩ := by
  induction k generalizing e with
  | zero =>
    show toBinary negative ⟨n * 1, e⟩ = toBinary negative ⟨n, e + 0⟩
    rw [Nat.mul_one, Int.add_zero]
  | succ k ih =>
    have hpow : n * Nat.pow 10 (k + 1) = 10 * (n * Nat.pow 10 k) := by
      have h : Nat.pow 10 (k + 1) = Nat.pow 10 k * 10 := rfl
      rw [h, ← Nat.mul_assoc, Nat.mul_comm]
    have hexponent : e + 1 + (k : Int) = e + (k + 1 : Nat) := by omega
    rw [hpow, toBinary_ten, ih, hexponent]

end Decimal

namespace Binary64

theorem toBinary_stripZeros (negative : Bool) (d : Decimal) :
    (stripZeros d).toBinary negative = d.toBinary negative := by
  fun_induction stripZeros d with
  | case1 d h ih =>
    have hdigits : 10 * (d.digits / 10) = d.digits :=
      Nat.mul_div_cancel' (Nat.dvd_of_mod_eq_zero h.2)
    rw [ih, ← Decimal.toBinary_ten, hdigits]
  | case2 d h => rfl

/-! ## The search -/

theorem isReadFrom_of_gridNeighbour? {x : Binary64} {tie : Tie} {exponent : Int} {d : Decimal}
    (h : x.gridNeighbour? tie exponent = some d) : x.isReadFrom d = true := by
  unfold gridNeighbour? at h
  simp only [] at h
  split at h
  · cases h
  · next hbelow _ =>
    cases h
    exact hbelow
  · next _ habove =>
    cases h
    exact habove
  · next hbelow habove =>
    split at h
    -- both neighbours read back, so it does not matter which one a tie goes to
    · cases h
      exact hbelow
    · split at h
      · cases h
        exact habove
      · cases tie with
        | up =>
          cases h
          exact habove
        | even =>
          cases h
          split
          · exact hbelow
          · exact habove

/-! ## The number written out -/

theorem units_pos {x : Binary64} (h : x.magnitude ≠ 0) : 0 < x.units := by
  have hsplit : x.magnitude / fractionSpan * fractionSpan + x.magnitude % fractionSpan
    = x.magnitude := Nat.div_add_mod' _ _
  unfold units
  simp only []
  split
  · next hzero =>
    rw [hzero, Nat.zero_mul, Nat.zero_add] at hsplit
    omega
  · exact Nat.mul_pos (Nat.add_pos_left (by decide) _) (Nat.two_pow_pos _)

theorem units_lt {x : Binary64} (hx : x.isFinite = true) : x.units < Nat.pow 2 2098 := by
  have hfinite : x.magnitude < 2047 * fractionSpan := of_decide_eq_true hx
  have hexponent : x.magnitude / fractionSpan < 2047 :=
    Nat.div_lt_of_lt_mul (Nat.mul_comm 2047 _ ▸ hfinite)
  have hfraction : x.magnitude % fractionSpan < fractionSpan := Nat.mod_lt _ (by decide)
  obtain ⟨top, htop⟩ : ∃ top, top = 2045 := ⟨_, rfl⟩
  have hspan : (fractionSpan + fractionSpan) * Nat.pow 2 top = Nat.pow 2 2098 := by
    rw [htop]
    decide +kernel
  have hpos : 0 < Nat.pow 2 top := Nat.two_pow_pos top
  rw [← hspan]
  unfold units
  simp only []
  split
  · exact Nat.lt_of_lt_of_le (Nat.lt_add_left _ hfraction) (Nat.le_mul_of_pos_right _ hpos)
  · have hpow : Nat.pow 2 (x.magnitude / fractionSpan - 1) ≤ Nat.pow 2 top :=
      Nat.pow_le_pow_right (by decide) (by omega)
    calc (fractionSpan + x.magnitude % fractionSpan) * Nat.pow 2 (x.magnitude / fractionSpan - 1)
        ≤ (fractionSpan + x.magnitude % fractionSpan) * Nat.pow 2 top :=
          Nat.mul_le_mul_left _ hpow
      _ < (fractionSpan + fractionSpan) * Nat.pow 2 top :=
          Nat.mul_lt_mul_of_pos_right (Nat.add_lt_add_left hfraction _) hpos

/-- How many digits a number has that is written out. -/
theorem width_exact {n : Nat} (hpos : 0 < n) (hlt : n < Nat.pow 2 2098) :
    743 < Decimal.width (n * Nat.pow 5 unitExponent) ∧
      Decimal.width (n * Nat.pow 5 unitExponent) ≤ 1384 := by
  have hlow : Nat.pow 10 743 ≤ Nat.pow 5 unitExponent := by decide +kernel
  have hhigh : Nat.pow 2 2098 * Nat.pow 5 unitExponent < Nat.pow 10 1384 := by decide +kernel
  -- the bounds are numbers of a thousand digits, which no later step has to look at
  generalize Nat.pow 5 unitExponent = m at *
  generalize Nat.pow 2 2098 = top at *
  have hwidth : ∀ low high, 0 < low → 0 < high → Nat.pow 10 low ≤ m → top * m < Nat.pow 10 high →
      low < Decimal.width (n * m) ∧ Decimal.width (n * m) ≤ high := by
    intro low high h₁ h₂ hlow hhigh
    rw [Decimal.lt_width_iff h₁, Decimal.width_le_iff h₂]
    exact ⟨Nat.le_trans hlow (Nat.le_mul_of_pos_left m hpos),
      Nat.lt_of_le_of_lt (Nat.mul_le_mul_right m (Nat.le_of_lt hlt)) hhigh⟩
  exact hwidth 743 1384 (by decide) (by decide) hlow hhigh

/-- A number that is written out is its own rounding. -/
theorem isReadFrom_exact {x : Binary64} (hx : x.isFinite = true) (hne : x.magnitude ≠ 0) :
    x.isReadFrom ⟨x.units * Nat.pow 5 unitExponent, -unitExponent⟩ = true := by
  have hpos := units_pos hne
  obtain ⟨hlow, hhigh⟩ := width_exact hpos (units_lt hx)
  have hpow : ∀ k, 0 < Nat.pow 5 k ∧ 0 < Nat.pow 10 k ∧ Nat.pow 5 k * Nat.pow 2 k = Nat.pow 10 k :=
    fun k => ⟨Nat.pow_pos (by decide), Nat.pow_pos (by decide), (Nat.mul_pow 5 2 k).symm⟩
  obtain ⟨hfive, hten, hproduct⟩ := hpow unitExponent
  have hunits : x.units * Nat.pow 5 unitExponent * unitsPerOne
      = x.units * Nat.pow 10 unitExponent := by
    unfold unitsPerOne
    simp only [Nat.mul_assoc, hproduct]
  have hword : nearestWord (x.units * Nat.pow 5 unitExponent * unitsPerOne)
      (Nat.pow 10 unitExponent) = x.magnitude := by
    rw [hunits, nearestWord_mul_self _ hten, nearestWord_units hx]
  have hnonzero : x.units * Nat.pow 5 unitExponent ≠ 0 := Nat.ne_of_gt (Nat.mul_pos hpos hfive)
  have htop : ¬(-(unitExponent : Int)
      + Decimal.width (x.units * Nat.pow 5 unitExponent) < -330) := by
    unfold unitExponent at *
    omega
  have htop' : ¬(310 < -(unitExponent : Int)
      + Decimal.width (x.units * Nat.pow 5 unitExponent)) := by
    unfold unitExponent at *
    omega
  have hexponent : ¬(0 ≤ -(unitExponent : Int)) := by decide
  unfold isReadFrom Decimal.toBinary
  simp only [hnonzero, false_or, if_neg htop, if_neg htop', if_neg hexponent, Int.neg_neg,
    Int.toNat_natCast]
  exact decide_eq_true hword

theorem isReadFrom_searchGrids {x : Binary64} (hx : x.isFinite = true) (hne : x.magnitude ≠ 0)
    (tie : Tie) (exponent : Int) (count : Nat) :
    x.isReadFrom (x.searchGrids tie exponent count) = true := by
  induction count generalizing exponent with
  | zero => exact isReadFrom_exact hx hne
  | succ count ih =>
    unfold searchGrids
    split
    · next h => exact isReadFrom_of_gridNeighbour? h
    · exact ih (exponent - 1)

/-- The digits that are written for a finite number round to it. -/
theorem toBinary_shortest {x : Binary64} (hx : x.isFinite = true) (tie : Tie) :
    ((x.shortest tie).toBinary false).magnitude = x.magnitude := by
  unfold shortest
  by_cases hzero : x.magnitude = 0
  · rw [if_pos hzero, hzero]
    rfl
  · rw [if_neg hzero, toBinary_stripZeros]
    exact of_decide_eq_true (isReadFrom_searchGrids hx hzero tie x.topExponent 22)

end Binary64

end Keepsake
