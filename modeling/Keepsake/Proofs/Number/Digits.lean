import Keepsake.Number.Decimal
/-!
# Rows of digits

The digits of a natural number read back as the number, and a row of them is found at the front of
a text that goes on with something else.
-/

namespace Keepsake

/-! ## Where a row ends -/

/-- A text that does not go on with a character of a kind. -/
def StopsAt (p : Char → Bool) (cs : List Char) : Prop := ∀ c ∈ cs.head?, p c = false

theorem stopsAt_nil (p : Char → Bool) : StopsAt p [] := nofun

theorem stopsAt_cons {p : Char → Bool} {c : Char} {cs : List Char} (h : p c = false) :
    StopsAt p (c :: cs) := by
  rintro _ ⟨⟩
  exact h

/-- A row of characters of a kind is all that is taken of them, and the rest is left. -/
theorem takeWhile_append_of_stopsAt {p : Char → Bool} {xs ys : List Char}
    (hx : ∀ c ∈ xs, p c = true) (hy : StopsAt p ys) :
    (xs ++ ys).takeWhile p = xs ∧ (xs ++ ys).dropWhile p = ys := by
  rw [List.takeWhile_append_of_pos hx, List.dropWhile_append_of_pos hx]
  cases ys with
  | nil => simp
  | cons c cs =>
    have hc : p c = false := hy c rfl
    simp [hc]

namespace Decimal

/-! ## The digits of a number -/

theorem isDigit_of_mem_digitChars {n : Nat} {c : Char} (h : c ∈ digitChars n) : c.isDigit = true :=
  Nat.isDigit_of_mem_toDigits (by decide) (by decide) h

theorem digitChars_ne_nil (n : Nat) : digitChars n ≠ [] := Nat.toDigits_ne_nil

theorem width_pos (n : Nat) : 0 < width n := List.length_pos_iff.2 (digitChars_ne_nil n)

theorem width_le_iff {n k : Nat} (hk : 0 < k) : width n ≤ k ↔ n < Nat.pow 10 k :=
  Nat.length_toDigits_le_iff (by decide) hk

theorem lt_width_iff {n k : Nat} (hk : 0 < k) : k < width n ↔ Nat.pow 10 k ≤ n := by
  rw [← Nat.not_le, width_le_iff hk, Nat.not_lt]

/-- Only the digits of zero begin with a zero. -/
theorem head?_digitChars_ne_zero {n : Nat} (h : n ≠ 0) : (digitChars n).head? ≠ some '0' := by
  induction n using Nat.strongRecOn with
  | ind n ih =>
    unfold digitChars
    rw [Nat.toDigits_eq_if (by decide)]
    split
    · next hlt =>
      have hdigit : ∀ d < 10, d ≠ 0 → [Nat.digitChar d].head? ≠ some '0' := by decide
      exact hdigit n hlt h
    · next hle =>
      have hfront := ih (n / 10) (by omega) (by omega)
      unfold digitChars at hfront
      cases hd : Nat.toDigits 10 (n / 10) with
      | nil => exact absurd hd (digitChars_ne_nil (n / 10))
      | cons d ds =>
        rw [hd] at hfront
        exact hfront

/-! ## What digits stand for -/

theorem ofDigits_append (start : Nat) (xs ys : List Char) :
    ofDigits start (xs ++ ys) = ofDigits (ofDigits start xs) ys := List.foldl_append

@[simp]
theorem ofDigits_digitChars (n : Nat) : ofDigits 0 (digitChars n) = n :=
  Nat.ofDigitChars_ten_toDigits

/-- More digits only make a number greater. -/
theorem le_ofDigits (start : Nat) (ds : List Char) : start ≤ ofDigits start ds := by
  induction ds generalizing start with
  | nil => exact Nat.le_refl start
  | cons d ds ih =>
    have h := ih (10 * start + digitValue d)
    show start ≤ ofDigits (10 * start + digitValue d) ds
    omega

/-- Zeros behind the digits shift them. -/
theorem ofDigits_zeros (start k : Nat) :
    ofDigits start (List.replicate k '0') = start * Nat.pow 10 k := by
  induction k generalizing start with
  | zero => exact (Nat.mul_one start).symm
  | succ k ih =>
    have hzero : digitValue '0' = 0 := by decide
    have hpow : Nat.pow 10 (k + 1) = Nat.pow 10 k * 10 := rfl
    rw [List.replicate_succ]
    show ofDigits (10 * start + digitValue '0') (List.replicate k '0') = _
    rw [ih, hzero, Nat.add_zero, hpow, Nat.mul_comm 10 start, Nat.mul_assoc,
      Nat.mul_comm 10 (Nat.pow 10 k)]

/-! ## Rows with zeros in front -/

/-- A digit is that of its value. -/
theorem digitValue_spec {c : Char} (h : c.isDigit = true) :
    digitValue c < 10 ∧ (digitValue c).digitChar = c := by
  have hdigit : ∀ d < 10, (Nat.digitChar d).toNat = 0x30 + d := by decide
  obtain ⟨hlow, hhigh⟩ : 0x30 ≤ c.toNat ∧ c.toNat ≤ 0x39 := Char.isDigit_iff_toNat.1 h
  have hvalue : digitValue c = c.toNat - 0x30 := rfl
  have hlt : digitValue c < 10 := by omega
  refine ⟨hlt, Char.toNat_inj.1 ?_⟩
  rw [hdigit _ hlt]
  omega

theorem digitChars_digitValue {c : Char} (h : c.isDigit = true) :
    digitChars (digitValue c) = [c] := by
  obtain ⟨hlt, hchar⟩ := digitValue_spec h
  unfold digitChars
  rw [Nat.toDigits_of_lt_base hlt, hchar]

/-- One more digit behind those of a number. -/
theorem digitChars_concat {n : Nat} (hn : n ≠ 0) {c : Char} (hc : c.isDigit = true) :
    digitChars n ++ [c] = digitChars (10 * n + digitValue c) := by
  rw [← digitChars_digitValue hc]
  exact Nat.toDigits_append_toDigits (by decide) (Nat.pos_of_ne_zero hn) (digitValue_spec hc).1

/-- A row of digits is that of the number it stands for, with zeros in front. -/
theorem exists_zeros_append {ds : List Char} (hne : ds ≠ []) (hd : ∀ c ∈ ds, c.isDigit = true) :
    ∃ zeros, ds = List.replicate zeros '0' ++ digitChars (ofDigits 0 ds) := by
  -- the value grows at the last digit, so the induction is on the row from its end
  obtain ⟨rs, rfl⟩ : ∃ rs, ds = rs.reverse := ⟨ds.reverse, by simp⟩
  induction rs with
  | nil => exact absurd rfl hne
  | cons c rs ih =>
    simp only [List.mem_reverse, List.forall_mem_cons] at hd ih
    obtain ⟨hc, hrs⟩ := hd
    rw [List.reverse_cons]
    have hvalue : ofDigits 0 (rs.reverse ++ [c]) = 10 * ofDigits 0 rs.reverse + digitValue c :=
      ofDigits_append 0 rs.reverse [c]
    rw [hvalue]
    by_cases hnil : rs.reverse = []
    · refine ⟨0, ?_⟩
      simp [hnil, ofDigits, digitChars_digitValue hc]
    · obtain ⟨zeros, hzeros⟩ := ih hnil hrs
      by_cases hn : ofDigits 0 rs.reverse = 0
      · -- all digits so far are zeros
        have hzero : digitChars 0 = ['0'] := by decide
        rw [hn, hzero] at hzeros
        refine ⟨zeros + 1, ?_⟩
        rw [hn, Nat.mul_zero, Nat.zero_add, digitChars_digitValue hc, List.replicate_succ', hzeros]
      · refine ⟨zeros, ?_⟩
        rw [← digitChars_concat hn hc, ← List.append_assoc, ← hzeros]

/-- The rows of digits that stand for a number. -/
theorem row_iff {n : Nat} {ds : List Char} :
    (ds ≠ [] ∧ ∀ c ∈ ds, c.isDigit = true) ∧ ofDigits 0 ds = n ↔
      ∃ zeros, ds = List.replicate zeros '0' ++ digitChars n := by
  constructor
  · rintro ⟨⟨hne, hd⟩, rfl⟩
    exact exists_zeros_append hne hd
  · rintro ⟨zeros, rfl⟩
    refine ⟨⟨by simp [digitChars_ne_nil], ?_⟩, ?_⟩
    · intro c hc
      rcases List.mem_append.1 hc with hc | hc
      · rw [(List.mem_replicate.1 hc).2]
        decide
      · exact isDigit_of_mem_digitChars hc
    · rw [ofDigits_append, ofDigits_zeros, Nat.zero_mul, ofDigits_digitChars]

/-! ## Counts -/

/-- How a count is spelled: with zeros before its digits or not, and behind a plus sign or not. -/
inductive CountText (n : Nat) : List Char → Prop where
  | plain (zeros : Nat) : CountText n (List.replicate zeros '0' ++ digitChars n)
  | signed (zeros : Nat) : CountText n ('+' :: (List.replicate zeros '0' ++ digitChars n))

theorem CountText.isDigit_or_plus {n : Nat} {cs : List Char} (h : CountText n cs) :
    ∀ c ∈ cs, c.isDigit = true ∨ c = '+' := by
  have hrow : ∀ zeros, ∀ c ∈ List.replicate zeros '0' ++ digitChars n, c.isDigit = true :=
    fun zeros => (row_iff.2 ⟨zeros, rfl⟩).1.2
  cases h with
  | plain zeros => exact fun c hc => .inl (hrow zeros c hc)
  | signed zeros => exact List.forall_mem_cons.2 ⟨.inr rfl, fun c hc => .inl (hrow zeros c hc)⟩

/-- What is read as a count is a spelling of it. -/
theorem readCount_eq_some_iff {limit n : Nat} {cs : List Char} :
    readCount limit cs = some n ↔ n < limit ∧ CountText n cs := by
  have hrow : ∀ ds : List Char,
      (if ds.isEmpty ∨ !ds.all Char.isDigit then none
        else if ofDigits 0 ds < limit then some (ofDigits 0 ds) else none) = some n ↔
      n < limit ∧ ∃ zeros, ds = List.replicate zeros '0' ++ digitChars n := by
    intro ds
    rw [← row_iff]
    by_cases hds : ds.isEmpty ∨ !ds.all Char.isDigit
    · rw [if_pos hds]
      simp only [List.isEmpty_iff, Bool.not_eq_true', List.all_eq_false] at hds
      grind
    · rw [if_neg hds]
      simp only [not_or, List.isEmpty_iff, Bool.not_eq_true', Bool.not_eq_false,
        List.all_eq_true] at hds
      grind
  unfold readCount
  simp only []
  split
  · next ds =>
    refine (hrow ds).trans (and_congr_right fun _ => ⟨?_, ?_⟩)
    · rintro ⟨zeros, rfl⟩
      exact .signed zeros
    · intro htext
      generalize hcs : '+' :: ds = cs at htext
      cases htext with
      | plain zeros =>
        have hdigit := (row_iff.2 ⟨zeros, rfl⟩).1.2 '+' (hcs ▸ List.mem_cons_self)
        exact absurd hdigit (by decide)
      | signed zeros => exact ⟨zeros, (List.cons.inj hcs).2⟩
  · next hsign =>
    refine (hrow cs).trans (and_congr_right fun _ => ⟨?_, ?_⟩)
    · rintro ⟨zeros, rfl⟩
      exact .plain zeros
    · intro htext
      cases htext with
      | plain zeros => exact ⟨zeros, rfl⟩
      | signed zeros => exact absurd rfl (hsign _)

end Decimal

end Keepsake
