import Keepsake.Json.Token
import Keepsake.Json.Writer
import Keepsake.Proofs.Json.Number
import Keepsake.Proofs.Number.Rounding
/-!
# The literals that floats are written as

A float is written as a literal: a whole part, then a fraction or an exponent or both. There are
five ways for its digits to stand in it (`Literal.Laid`), and in each of them the literal is a
regular one. What is read back is never an integer, and where the digits fit a word it is what the
reader makes of them and of their exponent (`Literal.value`).
-/

namespace Keepsake.Json

open Decimal (digitChars ofDigits)

/-- The parts of a number without its sign. -/
structure Literal where
  whole : List Char
  fraction : List Char
  /-- the exponent, if one is written -/
  written : Option Int

namespace Literal

/-- A written exponent. -/
def exponentChars : Option Int → List Char
  | none => []
  | some e => 'e' :: (if e < 0 then '-' else '+') :: digitChars e.natAbs

/-- The text of a literal. -/
def chars (l : Literal) : List Char :=
  l.whole ++ ((if l.fraction.isEmpty then [] else '.' :: l.fraction) ++ exponentChars l.written)

/-- The digits of a literal and the exponent of the last of them. -/
def value (l : Literal) : Decimal :=
  ⟨ofDigits 0 (l.whole ++ l.fraction), l.written.getD 0 - l.fraction.length⟩

/-- A literal of the grammar that is marked as no integer. -/
structure Regular (l : Literal) : Prop where
  whole : Number.IsWhole l.whole
  fraction : ∀ c ∈ l.fraction, c.isDigit = true
  marked : l.fraction = [] → l.written.isSome = true

/-! ## Reading -/

theorem stopsAt_exponentChars (e : Option Int) : StopsAt Char.isDigit (exponentChars e) := by
  cases e with
  | none => exact stopsAt_nil _
  | some e => exact stopsAt_cons (by decide)

theorem readExponent_exponentChars (e : Option Int) :
    Number.readExponent (exponentChars e) = some e := by
  cases e with
  | none => rfl
  | some e =>
    have hdigits : ¬((digitChars e.natAbs).isEmpty = true ∨
        (!(digitChars e.natAbs).all Char.isDigit) = true) := by
      simp only [List.isEmpty_iff, Bool.not_eq_true', List.all_eq_false, not_or, not_exists]
      exact ⟨Decimal.digitChars_ne_nil _,
        fun c hc => hc.2 (Decimal.isDigit_of_mem_digitChars hc.1)⟩
    unfold exponentChars Number.readExponent
    by_cases hneg : e < 0
    · have hvalue : -(e.natAbs : Int) = e := by omega
      simp only [if_pos hneg, if_neg hdigits, Decimal.ofDigits_digitChars, true_or, if_true, hvalue]
    · have hvalue : (e.natAbs : Int) = e := by omega
      simp only [if_neg hneg, if_neg hdigits, Decimal.ofDigits_digitChars, true_or, if_true]
      rw [← hvalue]
      rfl

/-- Digits that an exponent follows. -/
theorem readUnsigned_scaled {whole : List Char} (h : Number.IsWhole whole) (e : Int)
    (negative : Bool) :
    ∃ significand shift, Number.readUnsigned negative (whole ++ exponentChars (some e))
        = (Number.assemble significand shift e).map (fun x => Number.float { x with negative }) ∧
      (ofDigits 0 whole < wordSpan → significand = ofDigits 0 whole ∧ shift = 0) := by
  -- the exponent ends the digits, and keeps them from being taken as an integer
  obtain ⟨htake, hdrop, hwhole⟩ := h.cut (stopsAt_exponentChars (some e))
  refine ⟨(Number.absorb 0 whole).1, (Number.absorb 0 whole).2, ?_, fun hfits => ?_⟩
  · unfold Number.readUnsigned
    simp only [htake, hdrop, if_neg hwhole]
    have hread := readExponent_exponentChars (some e)
    obtain ⟨tail, htail⟩ : ∃ tail, exponentChars (some e) = 'e' :: tail := ⟨_, rfl⟩
    rw [htail] at hread ⊢
    simp only [hread]
    show Option.bind _ _ = Option.map _ _
    rw [Option.map_eq_bind]
    rfl
  · rw [Number.absorb_eq hfits]
    exact ⟨rfl, rfl⟩

/-- Digits with a point among them. -/
theorem readUnsigned_pointed {whole fraction : List Char} (h : Number.IsWhole whole)
    (hfraction : ∀ c ∈ fraction, c.isDigit = true) (hne : fraction ≠ []) (written : Option Int)
    (negative : Bool) :
    ∃ significand shift,
      Number.readUnsigned negative (whole ++ '.' :: (fraction ++ exponentChars written))
        = (Number.assemble significand shift (written.getD 0)).map
            (fun x => Number.float { x with negative }) ∧
      (ofDigits 0 (whole ++ fraction) < wordSpan →
        significand = ofDigits 0 (whole ++ fraction) ∧ shift = -(fraction.length : Int)) := by
  have hpoint : StopsAt Char.isDigit ('.' :: (fraction ++ exponentChars written)) :=
    stopsAt_cons (by decide)
  obtain ⟨htake, hdrop, hwhole⟩ := h.cut hpoint
  obtain ⟨htake', hdrop'⟩ := takeWhile_append_of_stopsAt hfraction (stopsAt_exponentChars written)
  refine ⟨(Number.absorb (Number.absorb 0 whole).1 fraction).1,
    (Number.absorb 0 whole).2
      - (fraction.length - (Number.absorb (Number.absorb 0 whole).1 fraction).2 : Nat),
    ?_, fun hfits => ?_⟩
  · have hempty : ¬fraction.isEmpty = true := by simpa using hne
    unfold Number.readUnsigned
    simp only [htake, hdrop, if_neg hwhole, htake', hdrop', if_neg hempty,
      readExponent_exponentChars]
    show Option.bind _ _ = Option.map _ _
    rw [Option.map_eq_bind]
    rfl
  · rw [Decimal.ofDigits_append] at hfits ⊢
    rw [Number.absorb_eq (Nat.lt_of_le_of_lt (Decimal.le_ofDigits _ fraction) hfits),
      Number.absorb_eq hfits]
    simp

/-- A regular literal is read as a float, and where its digits fit a word they are all taken. -/
theorem readUnsigned_chars {l : Literal} (h : l.Regular) (negative : Bool) :
    ∃ significand shift, Number.readUnsigned negative l.chars
        = (Number.assemble significand shift (l.written.getD 0)).map
            (fun x => Number.float { x with negative }) ∧
      (l.value.digits < wordSpan →
        significand = l.value.digits ∧ shift = -(l.fraction.length : Int)) := by
  obtain ⟨whole, fraction, written⟩ := l
  by_cases hf : fraction = []
  · subst hf
    obtain ⟨e, rfl⟩ := Option.isSome_iff_exists.1 (h.marked rfl)
    have hread := readUnsigned_scaled h.whole e negative
    simpa [chars, value] using hread
  · have hread := readUnsigned_pointed h.whole h.fraction hf written negative
    simpa [chars, value, hf] using hread

/-! ## Writing -/

/-- The literal that the digits of a float are laid out as. -/
def ofDecimal (d : Decimal) : Literal :=
  let ds := digitChars d.digits
  let point := d.exponent + ds.length
  if d.digits = 0 then ⟨['0'], ['0'], none⟩
  else if -5 < point ∧ point ≤ 16 then
    if point ≤ 0 then ⟨['0'], Layout.zeros (-point).toNat ++ ds, none⟩
    else if ds.length ≤ point.toNat then ⟨ds ++ Layout.zeros (point.toNat - ds.length), ['0'], none⟩
    else ⟨ds.take point.toNat, ds.drop point.toNat, none⟩
  else ⟨ds.take 1, ds.drop 1, some (point - 1)⟩

theorem scientific_eq {ds : List Char} (hne : ds ≠ []) (e : Int) :
    Layout.scientific true ds e = chars ⟨ds.take 1, ds.drop 1, some e⟩ := by
  have hsign : ∀ cs, (if e < 0 then ['-'] else ['+']) ++ cs = (if e < 0 then '-' else '+') :: cs :=
    fun cs => by split <;> rfl
  unfold Layout.scientific
  cases ds with
  | nil => exact absurd rfl hne
  | cons c more => cases more <;> simp [chars, exponentChars, hsign]

theorem magnitudeChars_eq (x : Binary64) :
    numberLayout.magnitudeChars x = (ofDecimal (x.shortest .even)).chars := by
  generalize hd : x.shortest .even = d
  have hd' : x.shortest numberLayout.tie = d := hd
  unfold Layout.magnitudeChars ofDecimal
  simp only [hd']
  by_cases hzero : d.digits = 0
  · rw [if_pos hzero, if_pos hzero]
    rfl
  rw [if_neg hzero, if_neg hzero]
  have hbounds : (numberLayout.lowest < d.exponent + (digitChars d.digits).length ∧
      d.exponent + (digitChars d.digits).length ≤ numberLayout.highest) =
        (-5 < d.exponent + (digitChars d.digits).length ∧
          d.exponent + (digitChars d.digits).length ≤ 16) := rfl
  have hne := Decimal.digitChars_ne_nil d.digits
  simp only [hbounds]
  by_cases hplace : -5 < d.exponent + (digitChars d.digits).length ∧
      d.exponent + (digitChars d.digits).length ≤ 16
  · rw [if_pos hplace, if_pos hplace]
    unfold Layout.positional
    by_cases hlow : d.exponent + (digitChars d.digits).length ≤ 0
    · rw [if_pos hlow, if_pos hlow]
      simp [chars, exponentChars, hne]
    · rw [if_neg hlow, if_neg hlow]
      by_cases hlong : (digitChars d.digits).length
          ≤ (d.exponent + (digitChars d.digits).length).toNat
      · simp only [if_pos hlong]
        simp [chars, exponentChars, numberLayout]
      · simp only [if_neg hlong]
        have hdrop : (digitChars d.digits).drop
            (d.exponent + (digitChars d.digits).length).toNat ≠ [] := by
          rw [Ne, List.drop_eq_nil_iff]
          exact hlong
        simp [chars, exponentChars, hdrop]
  · rw [if_neg hplace, if_neg hplace]
    exact scientific_eq hne _

/-! ## The parts of a written literal -/

/-- How the digits of a number stand in a literal. -/
inductive Laid (d : Decimal) : Literal → Prop
  | zero : d.digits = 0 → Laid d ⟨['0'], ['0'], none⟩
  /-- after the point and a few zeros -/
  | behind (k : Nat) : d.digits ≠ 0 → k < 5 → d.exponent + (digitChars d.digits).length = -k →
      Laid d ⟨['0'], Layout.zeros k ++ digitChars d.digits, none⟩
  /-- before zeros and the point -/
  | before (k : Nat) : d.digits ≠ 0 → d.exponent = k →
      Laid d ⟨digitChars d.digits ++ Layout.zeros k, ['0'], none⟩
  /-- on both sides of the point -/
  | around (p : Nat) : d.digits ≠ 0 → 0 < p → p < (digitChars d.digits).length →
      d.exponent + (digitChars d.digits).length = p →
      Laid d ⟨(digitChars d.digits).take p, (digitChars d.digits).drop p, none⟩
  /-- the first of them before the point, and an exponent -/
  | scaled : d.digits ≠ 0 →
      Laid d ⟨(digitChars d.digits).take 1, (digitChars d.digits).drop 1,
        some (d.exponent + (digitChars d.digits).length - 1)⟩

theorem laid_ofDecimal (d : Decimal) : Laid d (ofDecimal d) := by
  unfold ofDecimal
  simp only []
  by_cases hzero : d.digits = 0
  · rw [if_pos hzero]
    exact .zero hzero
  rw [if_neg hzero]
  by_cases hplace : -5 < d.exponent + (digitChars d.digits).length ∧
      d.exponent + (digitChars d.digits).length ≤ 16
  · rw [if_pos hplace]
    by_cases hlow : d.exponent + (digitChars d.digits).length ≤ 0
    · rw [if_pos hlow]
      exact .behind _ hzero (by omega) (by omega)
    rw [if_neg hlow]
    by_cases hlong : (digitChars d.digits).length
        ≤ (d.exponent + (digitChars d.digits).length).toNat
    · rw [if_pos hlong]
      exact .before _ hzero (by omega)
    · rw [if_neg hlong]
      exact .around _ hzero (by omega) (by omega) (by omega)
  · rw [if_neg hplace]
    exact .scaled hzero

theorem isDigit_of_mem_zeros {n : Nat} {c : Char} (h : c ∈ Layout.zeros n) : c.isDigit = true := by
  rw [List.eq_of_mem_replicate h]
  rfl

/-- A row that begins with the first digit of a number is a whole part. -/
theorem isWhole_of_head? {cs : List Char} {n : Nat} (hn : n ≠ 0) (hcs : ∀ c ∈ cs, c.isDigit = true)
    (hhead : cs.head? = (digitChars n).head?) : Number.IsWhole cs where
  digits := hcs
  ne_nil h := by
    rw [h] at hhead
    exact Decimal.digitChars_ne_nil n (List.head?_eq_none_iff.1 hhead.symm)
  lead h := absurd (hhead.symm.trans h) (Decimal.head?_digitChars_ne_zero hn)

theorem isWhole_zero : Number.IsWhole ['0'] where
  digits _ hc := isDigit_of_mem_zeros (n := 1) hc
  ne_nil := nofun
  lead _ := rfl

/-- The digits before a point that does not stand in front of all of them. -/
theorem isWhole_take {n p : Nat} (hn : n ≠ 0) (hp : p ≠ 0) :
    Number.IsWhole ((digitChars n).take p) :=
  isWhole_of_head? hn (fun _ hc => Decimal.isDigit_of_mem_digitChars (List.mem_of_mem_take hc))
    (by rw [List.head?_take, if_neg hp])

theorem Laid.regular {d : Decimal} {l : Literal} (h : Laid d l) : l.Regular := by
  have hds : ∀ c ∈ digitChars d.digits, c.isDigit = true := fun c hc =>
    Decimal.isDigit_of_mem_digitChars hc
  have hne := Decimal.digitChars_ne_nil d.digits
  cases h with
  | zero _ => exact ⟨isWhole_zero, isWhole_zero.digits, nofun⟩
  | behind k _ _ _ =>
    refine ⟨isWhole_zero, ?_, fun h => absurd h (by simp [hne])⟩
    exact List.forall_mem_append.2 ⟨fun c hc => isDigit_of_mem_zeros hc, hds⟩
  | before k hn _ =>
    have hdigits : ∀ c ∈ digitChars d.digits ++ Layout.zeros k, c.isDigit = true :=
      List.forall_mem_append.2 ⟨hds, fun c hc => isDigit_of_mem_zeros hc⟩
    refine ⟨isWhole_of_head? hn hdigits ?_, isWhole_zero.digits, nofun⟩
    rw [List.head?_append, Option.or_of_isSome (by simpa using hne)]
  | around p hn hp hlt _ =>
    refine ⟨isWhole_take hn (by omega), fun c hc => hds c (List.mem_of_mem_drop hc), fun h => ?_⟩
    exact absurd (List.drop_eq_nil_iff.1 h) (by omega)
  | scaled hn =>
    exact ⟨isWhole_take hn (by decide), fun c hc => hds c (List.mem_of_mem_drop hc), fun _ => rfl⟩

theorem regular_ofDecimal (d : Decimal) : (ofDecimal d).Regular := (laid_ofDecimal d).regular

end Literal

/-! ## The texts of numbers -/

/-- A text that is one number token. -/
structure IsNumberText (cs : List Char) : Prop where
  lead : ∃ c rest, cs = c :: rest ∧ (c = '-' ∨ c.isDigit = true)
  chars : ∀ c ∈ cs, isNumberChar c = true

theorem isNumberChar_of_isDigit {c : Char} (h : c.isDigit = true) : isNumberChar c = true := by
  simp [isNumberChar, h]

theorem Number.IsWhole.exists_lead {cs : List Char} (h : Number.IsWhole cs) (rest : List Char) :
    ∃ c more, cs ++ rest = c :: more ∧ c.isDigit = true := by
  cases cs with
  | nil => exact absurd rfl h.ne_nil
  | cons c cs => exact ⟨c, cs ++ rest, rfl, h.digits c (List.mem_cons_self ..)⟩

theorem Literal.Regular.isNumberText {l : Literal} (h : l.Regular) : IsNumberText l.chars where
  lead := by
    obtain ⟨c, rest, heq, hc⟩ := h.whole.exists_lead
      ((if l.fraction.isEmpty then [] else '.' :: l.fraction) ++ exponentChars l.written)
    exact ⟨c, rest, heq, Or.inr hc⟩
  chars c hc := by
    have hdigits : ∀ n, ∀ c ∈ digitChars n, isNumberChar c = true := fun n c hc =>
      isNumberChar_of_isDigit (Decimal.isDigit_of_mem_digitChars hc)
    unfold Literal.chars at hc
    rw [List.mem_append, List.mem_append] at hc
    rcases hc with hc | hc | hc
    · exact isNumberChar_of_isDigit (h.whole.digits c hc)
    · split at hc
      · cases hc
      · rcases List.mem_cons.1 hc with rfl | hc
        · decide
        · exact isNumberChar_of_isDigit (h.fraction c hc)
    · cases hw : l.written with
      | none =>
        rw [hw] at hc
        cases hc
      | some e =>
        rw [hw] at hc
        rcases List.mem_cons.1 hc with rfl | hc
        · decide
        · rcases List.mem_cons.1 hc with rfl | hc
          · split <;> decide
          · exact hdigits _ c hc

/-- A sign in front of a number is part of it. -/
theorem IsNumberText.minus {cs : List Char} (h : IsNumberText cs) : IsNumberText ('-' :: cs) where
  lead := ⟨'-', cs, rfl, Or.inl rfl⟩
  chars := by
    rw [List.forall_mem_cons]
    exact ⟨by decide, h.chars⟩

theorem isNumberText_chars (w : Whole) : IsNumberText w.chars := by
  have hdigits : IsNumberText (digitChars w.1.natAbs) := by
    have hwhole := Number.isWhole_digitChars w.1.natAbs
    obtain ⟨c, rest, heq, hc⟩ := hwhole.exists_lead []
    rw [List.append_nil] at heq
    exact ⟨⟨c, rest, heq, Or.inr hc⟩, fun c hc => isNumberChar_of_isDigit (hwhole.digits c hc)⟩
  unfold Whole.chars
  split
  · exact hdigits.minus
  · exact hdigits

/-- The literal of a finite float, its sign apart. -/
def literalOf (x : Binary64) : Literal := Literal.ofDecimal (x.shortest .even)

theorem floatChars_of_isFinite {x : Binary64} (hx : x.isFinite = true) :
    floatChars x = if x.negative then '-' :: (literalOf x).chars else (literalOf x).chars := by
  obtain ⟨hnan, hinf⟩ := Binary64.kinds_of_isFinite hx
  rw [floatChars, if_pos hx, Layout.chars, hnan, hinf]
  simp only [Bool.false_eq_true, if_false, Literal.magnitudeChars_eq]
  rfl

theorem isNumberText_floatChars {x : Binary64} (hx : x.isFinite = true) :
    IsNumberText (floatChars x) := by
  have hbody := (Literal.regular_ofDecimal (x.shortest .even)).isNumberText
  rw [floatChars_of_isFinite hx]
  split
  · exact hbody.minus
  · exact hbody

/-- What is read of a written float is a float with its sign, if anything. -/
theorem read_floatChars {x : Binary64} (hx : x.isFinite = true) :
    ∃ significand shift, Number.read (floatChars x)
        = (Number.assemble significand shift ((literalOf x).written.getD 0)).map
            (fun y => Keepsake.Number.float { y with negative := x.negative }) ∧
      ((literalOf x).value.digits < wordSpan →
        significand = (literalOf x).value.digits ∧
          shift = -((literalOf x).fraction.length : Int)) := by
  have hregular := Literal.regular_ofDecimal (x.shortest .even)
  obtain ⟨significand, shift, hread, hvalue⟩ := Literal.readUnsigned_chars hregular x.negative
  refine ⟨significand, shift, ?_, hvalue⟩
  rw [floatChars_of_isFinite hx, ← literalOf] at *
  cases hneg : x.negative with
  | true =>
    rw [hneg] at hread
    exact hread
  | false =>
    rw [hneg] at hread
    have hsign : ∀ cs, (literalOf x).chars ≠ '-' :: cs := by
      obtain ⟨c, rest, heq, hc⟩ := hregular.whole.exists_lead
        ((if (literalOf x).fraction.isEmpty then [] else '.' :: (literalOf x).fraction)
          ++ Literal.exponentChars (literalOf x).written)
      intro cs h
      obtain rfl : c = '-' := (List.cons.inj (heq.symm.trans h)).1
      exact absurd hc (by decide)
    rw [if_neg Bool.false_ne_true, Number.read.eq_2 _ hsign]
    exact hread

end Keepsake.Json
