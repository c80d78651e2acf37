import Keepsake.Number.Binary64
/-!
# What rounding to binary depends on

Rounding looks at the value of a ratio and not at the ratio (`ofRatio_mul`), and what is a number of
64 bits already is its own rounding (`nearestWord_units`). So arithmetic whose exact result
has a place among the numbers of 64 bits is exact, for whole numbers below `2 ^ 53` in particular.
-/

namespace Keepsake.Binary64

/-! ## Ratios of one value -/

theorem divNearest_mul (n den : Nat) {c : Nat} (hc : 0 < c) :
    divNearest (n * c) (den * c) = divNearest n den := by
  have hless : ∀ a b : Nat, a * c < b * c ↔ a < b := fun a b => Nat.mul_lt_mul_right hc
  unfold divNearest
  simp only [Nat.mul_div_mul_right n den hc, Nat.mul_mod_mul_right, ← Nat.mul_assoc, hless]

theorem nearestWord_mul (n den : Nat) {c : Nat} (hc : 0 < c) :
    nearestWord (n * c) (den * c) = nearestWord n den := by
  unfold nearestWord
  simp only [Nat.mul_div_mul_right n den hc, Nat.mul_right_comm den c, divNearest_mul _ _ hc]

theorem nearestWord_mul_self (n : Nat) {c : Nat} (hc : 0 < c) :
    nearestWord (n * c) c = nearestWord n 1 := by
  have h := nearestWord_mul n 1 hc
  rwa [Nat.one_mul] at h

/-- A factor of both parts of a ratio is of no account. -/
theorem ofRatio_mul (negative : Bool) (num den : Nat) {c : Nat} (hc : 0 < c) :
    ofRatio negative (num * c) (den * c) = ofRatio negative num den := by
  have hword : nearestWord (num * c * unitsPerOne) (den * c)
      = nearestWord (num * unitsPerOne) den := by
    rw [Nat.mul_right_comm, nearestWord_mul _ _ hc]
  simp only [ofRatio, hword]

/-! ## Numbers of 64 bits -/

theorem kinds_of_isFinite {x : Binary64} (hx : x.isFinite = true) :
    x.isNaN = false ∧ x.isInfinite = false := by
  simp only [isFinite, isNaN, isInfinite, decide_eq_true_eq, decide_eq_false_iff_not] at hx ⊢
  omega

/-- A number of 53 bits is its own rounding, by as many bits as it was shifted. -/
theorem nearestWord_shifted {m : Nat} (hlow : fractionSpan ≤ m) (hhigh : m < 2 * fractionSpan)
    (k : Nat) : nearestWord (m * Nat.pow 2 k) 1 = min (k * fractionSpan + m) infinityWord := by
  have hpow : 0 < Nat.pow 2 k := Nat.two_pow_pos k
  have hspan : fractionSpan * Nat.pow 2 k = Nat.pow 2 (52 + k) := (Nat.pow_add 2 52 k).symm
  have hspan' : 2 * fractionSpan * Nat.pow 2 k = Nat.pow 2 (52 + k + 1) := by
    rw [Nat.mul_assoc, hspan, Nat.mul_comm]
    rfl
  have hlog : (m * Nat.pow 2 k).log2 = 52 + k := by
    refine (Nat.log2_eq_iff ?_).2 ⟨?_, ?_⟩
    · exact Nat.mul_ne_zero (by omega) (Nat.ne_of_gt hpow)
    · show Nat.pow 2 (52 + k) ≤ _
      rw [← hspan]
      exact Nat.mul_le_mul_right _ hlow
    · show _ < Nat.pow 2 (52 + k + 1)
      rw [← hspan']
      exact Nat.mul_lt_mul_of_pos_right hhigh hpow
  have hshift : 52 + k + 1 - 53 = k := by omega
  have hone : divNearest m 1 = m := by
    unfold divNearest
    simp [Nat.mod_one]
  unfold nearestWord
  simp only [Nat.div_one, hlog, hshift, divNearest_mul m 1 hpow, hone]

/-- A finite number is its own rounding. -/
theorem nearestWord_units {x : Binary64} (hx : x.isFinite = true) :
    nearestWord x.units 1 = x.magnitude := by
  have hfinite : x.magnitude < infinityWord := by simpa [isFinite] using hx
  have hsplit : x.magnitude / fractionSpan * fractionSpan + x.magnitude % fractionSpan
    = x.magnitude := Nat.div_add_mod' _ _
  have hfraction : x.magnitude % fractionSpan < fractionSpan := Nat.mod_lt _ (by decide)
  unfold units
  simp only []
  by_cases hzero : x.magnitude / fractionSpan = 0
  · -- so near to zero, every whole number of units is one of them
    rw [if_pos hzero]
    have hword : x.magnitude % fractionSpan = x.magnitude := by
      rw [hzero, Nat.zero_mul, Nat.zero_add] at hsplit
      exact hsplit
    have hlog : (x.magnitude % fractionSpan).log2 + 1 - 53 = 0 := by
      by_cases hn : x.magnitude % fractionSpan = 0
      · rw [hn]
        rfl
      · have hlt : (x.magnitude % fractionSpan).log2 < 52 := (Nat.log2_lt hn).2 hfraction
        omega
    unfold nearestWord divNearest
    simp only [Nat.div_one, hlog]
    simp [hword, Nat.mod_one]
    omega
  · rw [if_neg hzero, nearestWord_shifted (by omega) (by omega)]
    have hexponent : (x.magnitude / fractionSpan - 1) * fractionSpan + fractionSpan
        = x.magnitude / fractionSpan * fractionSpan := by
      rw [← Nat.succ_mul, Nat.succ_eq_add_one, Nat.sub_add_cancel (Nat.pos_of_ne_zero hzero)]
    rw [← Nat.add_assoc, hexponent, hsplit, Nat.min_eq_left (Nat.le_of_lt hfinite)]

/-- The word of a number of at most 53 bits, shifted. -/
theorem units_of_magnitude {x : Binary64} {k m : Nat}
    (h : x.magnitude = k * fractionSpan + m) (hm : m ≤ 2 * fractionSpan)
    (hk : k = 0 ∨ fractionSpan ≤ m) : x.units = m * Nat.pow 2 k := by
  have hspan : 0 < fractionSpan := by decide
  have hexponent : x.magnitude / fractionSpan = m / fractionSpan + k := by
    rw [h, Nat.add_comm, Nat.add_mul_div_right m k hspan]
  have hfraction : x.magnitude % fractionSpan = m % fractionSpan := by
    rw [h, Nat.add_comm, Nat.add_mul_mod_self_right]
  unfold units
  simp only [hexponent, hfraction]
  rcases Nat.lt_or_ge m fractionSpan with hlow | hlow
  · obtain rfl := hk.resolve_right (Nat.not_le_of_lt hlow)
    rw [Nat.div_eq_of_lt hlow, Nat.mod_eq_of_lt hlow, if_pos rfl]
    exact (Nat.mul_one m).symm
  · obtain ⟨f, rfl⟩ := Nat.exists_eq_add_of_le hlow
    have hnormal : f / fractionSpan + 1 + k ≠ 0 := by
      rw [Nat.add_right_comm]
      exact Nat.succ_ne_zero _
    rw [Nat.add_div_left f hspan, Nat.add_mod_left, if_neg hnormal]
    rcases Nat.lt_or_ge f fractionSpan with hf | hf
    · rw [Nat.div_eq_of_lt hf, Nat.mod_eq_of_lt hf, Nat.zero_add, Nat.add_sub_cancel_left]
    · -- carried into the next exponent
      obtain rfl : f = fractionSpan := by
        rw [Nat.two_mul] at hm
        omega
      have hpow : Nat.pow 2 (k + 1) = 2 * Nat.pow 2 k := Nat.mul_comm _ _
      rw [Nat.div_self hspan, Nat.mod_self, show 1 + 1 + k - 1 = k + 1 by omega, hpow,
        ← Nat.mul_assoc, Nat.add_zero, Nat.mul_two]

end Keepsake.Binary64
