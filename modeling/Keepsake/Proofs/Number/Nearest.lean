import Keepsake.Number.Whole
import Keepsake.Proofs.Number.Rounding
/-!
# Rounding goes to the nearest

A quotient is rounded to a whole number whose product with the divisor is at most half a divisor
away from the dividend, and at just half only if the whole number is even (`IsRounded`). That
settles the whole number, and it never falls while the dividend grows.

A ratio is rounded to 53 bits in this way. The words around the result stand for the multiples of
one power of two, and smaller words for numbers below them all, so no finite number is nearer to
the ratio (`gap_nearestWord_le`); a whole number becomes the float nearest to it
(`isNearest_toBinary`).
-/

namespace Keepsake.Binary64

/-- How far two numbers are apart. -/
def gap (a b : Nat) : Nat := (a - b) + (b - a)

/-! ## Quotients -/

section

variable {n n' den m m' : Nat}

/-- A number of divisors that is nearest to a dividend; of two such numbers, the even one. -/
structure IsRounded (n den m : Nat) : Prop where
  le : 2 * (m * den) ≤ 2 * n + den
  ge : 2 * n ≤ 2 * (m * den) + den
  even : 2 * (m * den) = 2 * n + den ∨ 2 * n = 2 * (m * den) + den → m % 2 = 0

theorem isRounded_divNearest (n : Nat) (hden : 0 < den) : IsRounded n den (divNearest n den) := by
  have hsplit : n / den * den + n % den = n := Nat.div_add_mod' n den
  have hrest : n % den < den := Nat.mod_lt n hden
  unfold divNearest
  simp only []
  generalize n / den = q at *
  generalize n % den = r at *
  have hnext : (q + 1) * den = q * den + den := Nat.add_one_mul q den
  split
  · constructor <;> omega
  · split
    · constructor <;> omega
    · split <;> constructor <;> omega

theorem IsRounded.mono (h : IsRounded n den m) (h' : IsRounded n' den m') (hden : 0 < den)
    (hn : n ≤ n') : m ≤ m' := by
  refine Nat.le_of_not_lt fun hlt => ?_
  obtain ⟨k, rfl⟩ := Nat.exists_eq_add_of_lt hlt
  have hmul : (m' + k + 1) * den = m' * den + k * den + den := by
    rw [Nat.add_one_mul, Nat.add_mul]
  have hle := h.le
  have hge := h'.ge
  rw [hmul] at hle
  -- there is room for one more divisor only if both lie in the middle, and both would be even
  have hk : k * den = 0 := by omega
  have hzero : k = 0 := (Nat.mul_eq_zero.1 hk).resolve_right (Nat.ne_of_gt hden)
  have heven := h.even (Or.inl (by rw [hmul]; omega))
  have heven' := h'.even (Or.inr (by omega))
  omega

theorem divNearest_mono (hden : 0 < den) (hn : n ≤ n') : divNearest n den ≤ divNearest n' den :=
  (isRounded_divNearest n hden).mono (isRounded_divNearest n' hden) hden hn

theorem isRounded_mul (m : Nat) (hden : 0 < den) : IsRounded (m * den) den m := by
  constructor <;> omega

/-- Up to half a divisor is rounded to nothing. -/
theorem divNearest_eq_zero_iff (hden : 0 < den) : divNearest n den = 0 ↔ 2 * n ≤ den := by
  have h := isRounded_divNearest n hden
  constructor
  · intro hzero
    have hge := h.ge
    rw [hzero] at hge
    omega
  · intro hn
    generalize divNearest n den = m at h
    obtain ⟨hle, -, heven⟩ := h
    cases m with
    | zero => rfl
    | succ m =>
      rw [Nat.add_one_mul m den] at hle heven
      have hm : m * den = 0 := by omega
      have hzero : m = 0 := (Nat.mul_eq_zero.1 hm).resolve_right (Nat.ne_of_gt hden)
      have := heven (Or.inl (by omega))
      omega

/-- No other number of divisors is nearer; if one is as near, the rounded one is even. -/
theorem IsRounded.gap_le (h : IsRounded n den m) (j : Nat) :
    gap (m * den) n ≤ gap (j * den) n ∧
      (gap (m * den) n = gap (j * den) n → j = m ∨ m % 2 = 0) := by
  obtain ⟨hle, hge, heven⟩ := h
  unfold gap
  rcases Nat.lt_trichotomy j m with hlt | rfl | hlt
  · have hstep := Nat.mul_le_mul_right den hlt
    rw [Nat.add_one_mul] at hstep
    exact ⟨by omega, fun heq => Or.inr (heven (by omega))⟩
  · exact ⟨Nat.le_refl _, fun _ => Or.inl rfl⟩
  · have hstep := Nat.mul_le_mul_right den hlt
    rw [Nat.add_one_mul] at hstep
    exact ⟨by omega, fun heq => Or.inr (heven (by omega))⟩

end

/-! ## Floats -/

section

variable {x y : Binary64} {n den k m : Nat}

/-- A number of 64 bits is a multiple of a power of two, or below 53 bits of such multiples. -/
theorem units_lt_or_multiple (y : Binary64) (k : Nat) :
    y.units < fractionSpan * Nat.pow 2 k ∨ ∃ j, y.units = j * Nat.pow 2 k := by
  have hfraction : y.magnitude % fractionSpan < fractionSpan := Nat.mod_lt _ (by decide)
  have hpos : ∀ i, 0 < Nat.pow 2 i := fun i => Nat.two_pow_pos i
  unfold units
  simp only []
  generalize y.magnitude % fractionSpan = f at *
  split
  · exact Or.inl (Nat.lt_of_lt_of_le hfraction (Nat.le_mul_of_pos_right _ (hpos k)))
  · next he =>
    obtain ⟨e, he⟩ := Nat.exists_eq_succ_of_ne_zero he
    rw [he, Nat.succ_eq_add_one, Nat.add_sub_cancel]
    by_cases hle : k ≤ e
    · obtain ⟨i, rfl⟩ := Nat.exists_eq_add_of_le hle
      have hpow : Nat.pow 2 (k + i) = Nat.pow 2 i * Nat.pow 2 k := by
        rw [Nat.mul_comm]
        exact Nat.pow_add 2 k i
      exact Or.inr ⟨_, by rw [hpow, Nat.mul_assoc]⟩
    · have hpow : 2 * Nat.pow 2 e ≤ Nat.pow 2 k := by
        have hsucc : Nat.pow 2 (e + 1) = 2 * Nat.pow 2 e := Nat.mul_comm _ _
        rw [← hsucc]
        exact Nat.pow_le_pow_right (by decide) (by omega)
      left
      calc (fractionSpan + f) * Nat.pow 2 e
          < (fractionSpan + fractionSpan) * Nat.pow 2 e :=
            Nat.mul_lt_mul_of_pos_right (by omega) (hpos e)
        _ = fractionSpan * (2 * Nat.pow 2 e) := by
            rw [← Nat.two_mul, ← Nat.mul_assoc, Nat.mul_comm 2]
        _ ≤ fractionSpan * Nat.pow 2 k := Nat.mul_le_mul_left _ hpow

/--
The word nearest to a ratio: a rounded number of powers of two, of 53 bits where there are so many.
-/
theorem nearestWord_rounds (n : Nat) (hden : 0 < den) :
    ∃ k m, k = (n / den).log2 + 1 - 53 ∧
      nearestWord n den = min (k * fractionSpan + m) infinityWord ∧
      IsRounded n (den * Nat.pow 2 k) m ∧ m ≤ 2 * fractionSpan ∧
      (k = 0 ∨ fractionSpan ≤ m ∧ fractionSpan * (den * Nat.pow 2 k) ≤ n) := by
  obtain ⟨k, hk⟩ : ∃ k, k = (n / den).log2 + 1 - 53 := ⟨_, rfl⟩
  have hstep : 0 < den * Nat.pow 2 k := Nat.mul_pos hden (Nat.two_pow_pos k)
  have hrounded := isRounded_divNearest n hstep
  -- what is rounded has at most 53 bits, and no fewer if any were dropped
  have hhigh : n ≤ 2 * fractionSpan * (den * Nat.pow 2 k) := by
    have hbits : n / den < Nat.pow 2 (k + 53) :=
      Nat.lt_of_lt_of_le Nat.lt_log2_self (Nat.pow_le_pow_right (by decide) (by omega))
    have hspan : 2 * fractionSpan * Nat.pow 2 k = Nat.pow 2 (k + 53) :=
      (Nat.mul_comm _ _).trans (Nat.pow_add 2 k 53).symm
    rw [Nat.mul_comm den, ← Nat.mul_assoc, hspan]
    exact Nat.le_of_lt ((Nat.div_lt_iff_lt_mul hden).1 hbits)
  have hlow : k = 0 ∨ fractionSpan * (den * Nat.pow 2 k) ≤ n := by
    refine Decidable.or_iff_not_imp_left.2 fun hne => ?_
    have hbits : Nat.pow 2 (52 + k) ≤ n / den :=
      (Nat.le_log2 fun hzero => by simp [hzero] at hk; omega).1 (by omega)
    have hspan : fractionSpan * Nat.pow 2 k = Nat.pow 2 (52 + k) := (Nat.pow_add 2 52 k).symm
    rw [Nat.mul_comm den, ← Nat.mul_assoc, hspan]
    exact (Nat.le_div_iff_mul_le hden).1 hbits
  refine ⟨k, _, hk, ?_, hrounded, hrounded.mono (isRounded_mul _ hstep) hstep hhigh, ?_⟩
  · rw [hk]
    rfl
  · exact hlow.imp_right fun hlow => ⟨(isRounded_mul _ hstep).mono hrounded hstep hlow, hlow⟩

/--
No finite number is nearer to a ratio than what it is rounded to; if another one is as near, the
word is even.
-/
theorem gap_nearestWord_le (hden : 0 < den) (hx : x.magnitude = nearestWord n den)
    (hfinite : x.isFinite = true) (y : Binary64) :
    gap (x.units * den) n ≤ gap (y.units * den) n ∧
      (gap (x.units * den) n = gap (y.units * den) n →
        y.units = x.units ∨ x.magnitude % 2 = 0) := by
  obtain ⟨k, m, -, hword, hrounded, hm, hlow⟩ := nearestWord_rounds n hden
  have hbelow : x.magnitude < infinityWord := of_decide_eq_true hfinite
  have hmagnitude : x.magnitude = k * fractionSpan + m := by omega
  have hunits := units_of_magnitude hmagnitude hm (hlow.imp_right And.left)
  have hparity : x.magnitude % 2 = m % 2 := by
    have heven : fractionSpan % 2 = 0 := by decide
    rw [hmagnitude, Nat.add_mod, Nat.mul_mod, heven, Nat.mul_zero, Nat.zero_mod, Nat.zero_add,
      Nat.mod_mod]
  have hproduct : ∀ j, j * Nat.pow 2 k * den = j * (den * Nat.pow 2 k) := fun j => by
    rw [Nat.mul_assoc, Nat.mul_comm den]
  rw [hunits, hproduct, hparity]
  have hmultiple : ∀ j, y.units = j * Nat.pow 2 k →
      gap (m * (den * Nat.pow 2 k)) n ≤ gap (y.units * den) n ∧
        (gap (m * (den * Nat.pow 2 k)) n = gap (y.units * den) n →
          y.units = m * Nat.pow 2 k ∨ m % 2 = 0) := by
    rintro j hj
    obtain ⟨hle, htie⟩ := hrounded.gap_le j
    rw [hj, hproduct]
    exact ⟨hle, fun heq => (htie heq).imp_left (congrArg (· * Nat.pow 2 k))⟩
  rcases units_lt_or_multiple y k with hsmall | ⟨j, hj⟩
  · rcases hlow with rfl | ⟨-, hlow⟩
    · exact hmultiple y.units (Nat.mul_one _).symm
    · -- all multiples in question lie between this number and the ratio
      have hbelow : y.units * den < fractionSpan * (den * Nat.pow 2 k) := by
        rw [← hproduct]
        exact Nat.mul_lt_mul_of_pos_right hsmall hden
      have hle := (hrounded.gap_le fractionSpan).1
      unfold gap at *
      exact ⟨by omega, fun heq => by omega⟩
  · exact hmultiple j hj

theorem nearestWord_lt_infinityWord (hden : 0 < den) (hn : (n / den).log2 < 2096) :
    nearestWord n den < infinityWord := by
  obtain ⟨k, m, hk, hword, -, hm, -⟩ := nearestWord_rounds n hden
  have hexponent : k * fractionSpan ≤ 2043 * fractionSpan := Nat.mul_le_mul_right _ (by omega)
  have hinfinity : infinityWord = 2043 * fractionSpan + 2 * fractionSpan + 2 * fractionSpan := rfl
  have hspan : 0 < fractionSpan := by decide
  omega

end

/-! ## Integers -/

/-- The number that a finite float stands for, counted in smallest positive numbers. -/
def value (x : Binary64) : Int := if x.negative then -(x.units : Int) else x.units

/--
The float nearest to an integer: finite, of the integer's sign, and at least as near as every finite
float. If a float of another value is as near, its word is even.
-/
structure IsNearest (i : Int) (x : Binary64) : Prop where
  finite : x.isFinite = true
  sign : x.negative = decide (i < 0)
  nearest : ∀ y : Binary64, y.isFinite = true →
    (x.value - i * unitsPerOne).natAbs ≤ (y.value - i * unitsPerOne).natAbs
  even : ∀ y : Binary64, y.isFinite = true → y.value ≠ x.value →
    (y.value - i * unitsPerOne).natAbs = (x.value - i * unitsPerOne).natAbs → x.magnitude % 2 = 0

/-- The magnitudes tell how far a float and an integer are apart. -/
theorem natAbs_value_sub (x : Binary64) (i : Int) :
    (x.value - i * unitsPerOne).natAbs = if x.negative = decide (i < 0)
      then gap x.units (i.natAbs * unitsPerOne) else x.units + i.natAbs * unitsPerOne := by
  generalize unitsPerOne = u
  unfold value gap
  by_cases hneg : i < 0
  · obtain ⟨n, rfl⟩ : ∃ n : Nat, i = -n := ⟨i.natAbs, by omega⟩
    rw [decide_eq_true hneg, Int.natAbs_neg, Int.natAbs_natCast, Int.neg_mul, ← Int.natCast_mul]
    generalize n * u = p
    cases x.negative <;> simp only [if_true, Bool.false_eq_true, if_false] <;> omega
  · obtain ⟨n, rfl⟩ : ∃ n : Nat, i = n := ⟨i.natAbs, by omega⟩
    rw [decide_eq_false hneg, Int.natAbs_natCast, ← Int.natCast_mul]
    generalize n * u = p
    cases x.negative <;> simp only [if_true, Bool.true_eq_false, Bool.false_eq_true, if_false] <;>
      omega

theorem isFinite_ofInt {i : Int} (hi : i.natAbs < wordSpan) : (ofInt i).isFinite = true := by
  have he : 64 + unitExponent ≤ 2096 := by decide
  refine decide_eq_true (nearestWord_lt_infinityWord Nat.one_pos ?_)
  rw [Nat.div_one]
  unfold unitsPerOne
  generalize unitExponent = e at he
  by_cases hzero : i.natAbs * Nat.pow 2 e = 0
  · rw [hzero]
    decide
  · have hbits : i.natAbs * Nat.pow 2 e < 2 ^ (64 + e) := by
      rw [Nat.pow_add]
      exact Nat.mul_lt_mul_of_pos_right hi (Nat.two_pow_pos e)
    exact Nat.lt_of_lt_of_le ((Nat.log2_lt hzero).2 hbits) he

theorem isNearest_ofInt {i : Int} (hi : i.natAbs < wordSpan) : IsNearest i (ofInt i) := by
  have hfinite := isFinite_ofInt hi
  have hgap : ∀ y : Binary64, _ := gap_nearestWord_le (x := ofInt i) Nat.one_pos rfl hfinite
  simp only [Nat.mul_one] at hgap
  have hsign : (ofInt i).negative = decide (i < 0) := rfl
  have hvalue : ∀ y : Binary64, y.negative = (ofInt i).negative → y.units = (ofInt i).units →
      y.value = (ofInt i).value := fun y hy hunits => by rw [value, value, hy, hunits]
  -- zero lies between the integer and all floats of the other sign
  have hzero := hgap (zero false)
  have hunits : (zero false).units = 0 := by decide
  refine ⟨hfinite, hsign, fun y hy => ?_, fun y hy hne heq => ?_⟩
  · rw [natAbs_value_sub, natAbs_value_sub, if_pos hsign]
    split
    · exact (hgap y).1
    · have := hzero.1
      rw [hunits] at this
      unfold gap at *
      omega
  · rw [natAbs_value_sub, natAbs_value_sub, if_pos hsign] at heq
    split at heq
    · next hy =>
      refine ((hgap y).2 heq.symm).resolve_left fun hsame => hne ?_
      exact hvalue y (hy.trans hsign.symm) hsame
    · have hle := hzero.1
      have hyzero : y.units = 0 ∧ gap (ofInt i).units (i.natAbs * unitsPerOne)
          = gap (zero false).units (i.natAbs * unitsPerOne) := by
        rw [hunits] at hle ⊢
        unfold gap at *
        omega
      refine (hzero.2 hyzero.2).resolve_left fun hsame => hne ?_
      rw [hunits] at hsame
      rw [value, value, hyzero.1, ← hsame]
      simp

/-- A whole number becomes the float nearest to it. -/
theorem isNearest_toBinary (w : Whole) : IsNearest w.1 w.toBinary :=
  isNearest_ofInt <| by
    have hfits := w.2
    show w.1.natAbs < 0x10000000000000000
    omega

/-- Two floats are as near to this number, and its word is the even one. -/
example : Whole.toBinary ⟨0x20000000000001, by decide⟩ =
    Whole.toBinary ⟨0x20000000000000, by decide⟩ :=
  by decide +kernel

end Keepsake.Binary64
