import Keepsake.Json.Writer
import Keepsake.Json.Number
import Keepsake.Proofs.Number.Digits
/-!
# Numbers read back from JSON

The digits of an integer of 64 bits fit the significand, so an integer is read back as it was
written. A float is written with a point or an exponent, so it is never read back as an integer.
-/

namespace Keepsake.Json

open Decimal (digitChars ofDigits digitValue)

namespace Number

/-! ## Digits -/

/-- Digits of a number that fits a word are all taken into the significand. -/
theorem absorb_eq {start : Nat} {ds : List Char} (h : ofDigits start ds < wordSpan) :
    absorb start ds = (ofDigits start ds, 0) := by
  induction ds generalizing start with
  | nil => rfl
  | cons d ds ih =>
    have hnext : 10 * start + digitValue d < wordSpan :=
      Nat.lt_of_le_of_lt (Decimal.le_ofDigits _ ds) h
    unfold absorb
    simp only [if_pos hnext]
    exact ih h

/-- The whole part of a number: digits, of which the first is a zero only if it is the only one. -/
structure IsWhole (cs : List Char) : Prop where
  digits : ∀ c ∈ cs, c.isDigit = true
  ne_nil : cs ≠ []
  lead : cs.head? = some '0' → cs.length = 1

theorem isWhole_digitChars (n : Nat) : IsWhole (digitChars n) where
  digits _ hc := Decimal.isDigit_of_mem_digitChars hc
  ne_nil := Decimal.digitChars_ne_nil n
  lead h := by
    by_cases hn : n = 0
    · subst hn
      rfl
    · exact absurd h (Decimal.head?_digitChars_ne_zero hn)

/-- The whole part is cut off where the digits end, and it is a regular one. -/
theorem IsWhole.cut {cs rest : List Char} (h : IsWhole cs) (hrest : StopsAt Char.isDigit rest) :
    (cs ++ rest).takeWhile Char.isDigit = cs ∧ (cs ++ rest).dropWhile Char.isDigit = rest ∧
      ¬(cs.isEmpty = true ∨ cs.head? = some '0' ∧ cs.length ≠ 1) := by
  obtain ⟨htake, hdrop⟩ := takeWhile_append_of_stopsAt h.digits hrest
  refine ⟨htake, hdrop, ?_⟩
  rintro (hempty | ⟨hlead, hlength⟩)
  · exact h.ne_nil (List.isEmpty_iff.1 hempty)
  · exact hlength (h.lead hlead)

/-! ## Integers -/

theorem readUnsigned_digitChars (negative : Bool) {n : Nat} (hn : n < wordSpan) :
    readUnsigned negative (digitChars n) = some (ofSignificand negative n) := by
  have hcut := (isWhole_digitChars n).cut (stopsAt_nil _)
  rw [List.append_nil] at hcut
  have habsorb : absorb 0 (digitChars n) = (n, 0) := by
    rw [absorb_eq (by rwa [Decimal.ofDigits_digitChars]), Decimal.ofDigits_digitChars]
  unfold readUnsigned
  simp only [hcut.1, hcut.2.1, if_neg hcut.2.2, habsorb]
  rfl

/-- An integer is read back as it was written. -/
theorem read_chars (w : Whole) : read w.chars = some (.whole w) := by
  obtain ⟨i, hi⟩ := w
  have hfits : i.natAbs < wordSpan := by
    obtain ⟨hlow, hhigh⟩ := hi
    show i.natAbs < 0x10000000000000000
    omega
  unfold Whole.chars
  by_cases hneg : i < 0
  · have hvalue : -(i.natAbs : Int) = i := by omega
    have hnonzero : i.natAbs ≠ 0 := by omega
    rw [if_pos hneg]
    show readUnsigned true (digitChars i.natAbs) = _
    rw [readUnsigned_digitChars true hfits, ofSignificand, if_pos rfl, hvalue, Whole.ofInt?,
      dif_pos hi]
    simp [hnonzero]
  · have hvalue : (i.natAbs : Int) = i := by omega
    have hsign : ∀ cs, digitChars i.natAbs ≠ '-' :: cs := by
      intro cs h
      have hdigit : '-'.isDigit = true :=
        Decimal.isDigit_of_mem_digitChars (h ▸ List.mem_cons_self ..)
      exact absurd hdigit (by decide)
    rw [if_neg hneg, read.eq_2 _ hsign, readUnsigned_digitChars false hfits, ofSignificand,
      if_neg (by decide), hvalue, Whole.ofInt?, dif_pos hi]
    simp

end Number

end Keepsake.Json
