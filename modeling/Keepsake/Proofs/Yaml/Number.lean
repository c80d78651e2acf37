import Keepsake.Proofs.Json.Float
import Keepsake.Yaml.Writer
/-!
# Numbers read back from YAML

An integer is written as digits behind its sign, and the reader takes them in base ten. A finite
float is written as the literal that JSON has for it, but without a plus sign in the exponent
(`literalChars`). Something in it is no digit, so it is no integer; and since the reader takes the
nearest float to the digits, it is the float that was written. The other floats have words of their
own, one for every NaN.
-/

namespace Keepsake

/-! ## Signs -/

/-- The sign has no part in rounding. -/
theorem Decimal.toBinary_sign (negative : Bool) (d : Decimal) :
    d.toBinary negative = { d.toBinary false with negative } := by
  unfold toBinary
  simp only []
  split
  · rfl
  · split
    · rfl
    · split <;> rfl

/-- The digits that are written for a finite number round to it, given its sign. -/
theorem Binary64.toBinary_shortest_eq {x : Binary64} (hx : x.isFinite = true) {d : Decimal}
    {tie : Tie} (hd : d.toBinary false = (x.shortest tie).toBinary false) :
    d.toBinary x.negative = x := by
  have hmagnitude := toBinary_shortest hx tie
  rw [Decimal.toBinary_sign, hd]
  obtain ⟨negative, magnitude, hlt⟩ := x
  simp only [Binary64.mk.injEq, true_and]
  exact hmagnitude

theorem Binary64.eq_infinity {x : Binary64} (hx : x.isInfinite = true) :
    x = infinity x.negative := by
  obtain ⟨negative, magnitude, hlt⟩ := x
  simpa [isInfinite, infinity] using hx

namespace Yaml

open Decimal (digitChars ofDigits digitValue)
open Json (Literal IsNumberText)

section

variable {c : Char} {cs ds : List Char}

/-! ## Digits -/

theorem isDigit_iff : c.isDigit = true ↔ 0x30 ≤ c.toNat ∧ c.toNat ≤ 0x39 := by
  simp only [Char.isDigit, Bool.and_eq_true, decide_eq_true_eq]
  exact Iff.rfl

theorem digitOf?_of_isDigit (h : c.isDigit = true) : digitOf? 10 c = some (digitValue c) := by
  have hrange := isDigit_iff.1 h
  simp only [digitOf?, if_pos hrange]
  exact if_pos (by omega)

theorem isDigit_of_digitOf? {n : Nat} (h : digitOf? 10 c = some n) : c.isDigit = true := by
  by_cases hrange : 0x30 ≤ c.toNat ∧ c.toNat ≤ 0x39
  · exact isDigit_iff.2 hrange
  · -- the letters stand for ten and more
    have hlarge : 10 ≤ (if 0x61 ≤ c.toNat ∧ c.toNat ≤ 0x66 then c.toNat - 0x61 + 10
        else if 0x41 ≤ c.toNat ∧ c.toNat ≤ 0x46 then c.toNat - 0x41 + 10 else 10) := by
      split
      · omega
      · split <;> omega
    simp only [digitOf?, if_neg hrange, if_neg (Nat.not_lt.2 hlarge)] at h
    cases h

/-- A row of digits is read as what it stands for. -/
theorem digitsOf?_of_isDigit (hne : ds ≠ []) (h : ∀ c ∈ ds, c.isDigit = true) :
    digitsOf? 10 ds = some (ofDigits 0 ds) := by
  have hfold : ∀ start, ds.foldlM (fun n c => (digitOf? 10 c).map (10 * n + ·)) start =
      some (ofDigits start ds) := by
    clear hne
    induction ds with
    | nil => exact fun _ => rfl
    | cons d ds ih =>
      intro start
      rw [List.forall_mem_cons] at h
      rw [List.foldlM_cons, digitOf?_of_isDigit h.1]
      exact ih h.2 _
  rw [digitsOf?, if_neg (by simpa using hne)]
  exact hfold 0

/-- Anything but a digit spoils the row. -/
theorem digitsOf?_eq_none (hc : c ∈ cs) (hd : c.isDigit = false) : digitsOf? 10 cs = none := by
  have hfold : ∀ start, cs.foldlM (fun n c => (digitOf? 10 c).map (10 * n + ·)) start = none := by
    induction cs with
    | nil => cases hc
    | cons d cs ih =>
      intro start
      rw [List.foldlM_cons]
      cases hdigit : digitOf? 10 d with
      | none => rfl
      | some n =>
        refine ih ((List.mem_cons.1 hc).resolve_left ?_) _
        rintro rfl
        rw [isDigit_of_digitOf? hdigit] at hd
        cases hd
  rw [digitsOf?, hfold, ite_self]

/-! ## Integers -/

theorem hasLeadingZero_eq_false (hc : c ∈ dropSign cs) (hd : c.isDigit = false) :
    hasLeadingZero cs = false := by
  unfold hasLeadingZero
  split
  · next d ds heq =>
    rw [heq] at hc
    rw [List.all_eq_false]
    refine ⟨c, (List.mem_cons.1 hc).resolve_left ?_, by simp [hd]⟩
    rintro rfl
    cases hd
  · rfl

/-- A text with a digit in front has no sign. -/
theorem ne_sign_of_isDigit (h : c.isDigit = true) : c ≠ '-' ∧ c ≠ '+' := by
  constructor <;> (rintro rfl; cases h)

theorem dropSign_of_isDigit (h : c.isDigit = true) (cs : List Char) :
    dropSign (c :: cs) = c :: cs := by
  obtain ⟨hminus, hplus⟩ := ne_sign_of_isDigit h
  unfold dropSign
  split <;> simp_all

theorem readInteger_of_isDigit (h : c.isDigit = true) (cs : List Char) :
    readInteger (c :: cs) = (readMagnitude (c :: cs)).map Int.ofNat := by
  obtain ⟨hminus, hplus⟩ := ne_sign_of_isDigit h
  unfold readInteger
  split <;> simp_all

/-- A text in base ten, if no letter behind a zero names another base. -/
theorem readMagnitude_eq (h : ∀ c ∈ cs, Json.isNumberChar c = true) :
    readMagnitude cs = if hasLeadingZero cs then none else digitsOf? 10 cs := by
  have hletter : ∀ c ∈ cs, c ≠ 'x' ∧ c ≠ 'o' ∧ c ≠ 'b' := by
    intro c hc
    have hchar := h c hc
    refine ⟨?_, ?_, ?_⟩ <;> (rintro rfl; exact absurd hchar (by decide))
  unfold readMagnitude
  split
  · exact absurd rfl (hletter 'x' (by simp)).1
  · exact absurd rfl (hletter 'o' (by simp)).2.1
  · exact absurd rfl (hletter 'b' (by simp)).2.2
  · rfl

theorem readMagnitude_digitChars (n : Nat) : readMagnitude (digitChars n) = some n := by
  have hdigits : ∀ c ∈ digitChars n, c.isDigit = true := fun c =>
    Decimal.isDigit_of_mem_digitChars
  have hzero : hasLeadingZero (digitChars n) = false := by
    obtain ⟨c, ds, hds⟩ := List.exists_cons_of_ne_nil (Decimal.digitChars_ne_nil n)
    have hlead := (Json.Number.isWhole_digitChars n).lead
    rw [hds] at hdigits hlead ⊢
    unfold hasLeadingZero
    rw [dropSign_of_isDigit (hdigits c (List.mem_cons_self ..))]
    split
    · next heq =>
      obtain ⟨rfl, rfl⟩ := List.cons.inj heq
      cases hlead rfl
    · rfl
  rw [readMagnitude_eq fun c hc => Json.isNumberChar_of_isDigit (hdigits c hc), hzero,
    if_neg Bool.false_ne_true, digitsOf?_of_isDigit (Decimal.digitChars_ne_nil n) hdigits,
    Decimal.ofDigits_digitChars]

theorem readInteger_chars (w : Whole) : readInteger w.chars = some w.1 := by
  unfold Whole.chars
  split
  · have hvalue : -(w.1.natAbs : Int) = w.1 := by omega
    simp only [readInteger, readMagnitude_digitChars]
    exact congrArg some hvalue
  · have hvalue : (w.1.natAbs : Int) = w.1 := by omega
    have hread := readMagnitude_digitChars w.1.natAbs
    obtain ⟨c, ds, hds⟩ := List.exists_cons_of_ne_nil (Decimal.digitChars_ne_nil w.1.natAbs)
    have hdigit : c.isDigit = true :=
      Decimal.isDigit_of_mem_digitChars (hds ▸ List.mem_cons_self ..)
    rw [hds] at hread ⊢
    rw [readInteger_of_isDigit hdigit, hread]
    exact congrArg some hvalue

/-! ## Forms of numbers -/

/-- No word begins like a number. -/
theorem ofPlain_of_isNumberText (h : IsNumberText cs) :
    Form.ofPlain cs = match Form.integer? cs with
      | some f => f
      | none =>
        if hasLeadingZero cs then .text
        else match readFloat cs with
          | some x => .number (.float x)
          | none => .text := by
  obtain ⟨c, rest, rfl, hc⟩ := h.lead
  have hne : ∀ d : Char, d ≠ '-' → d.isDigit = false → d ≠ c := by
    rintro d hminus hdigit rfl
    rcases hc with hc | hc
    · exact hminus hc
    · rw [hdigit] at hc
      cases hc
  have hnull : isNullWord (c :: rest) = false := by
    simp [isNullWord, hne 'n' (by decide) (by decide), hne 'N' (by decide) (by decide),
      hne '~' (by decide) (by decide)]
  have hbool : boolWord? (c :: rest) = none := by
    simp [boolWord?, hne 't' (by decide) (by decide), hne 'T' (by decide) (by decide),
      hne 'f' (by decide) (by decide), hne 'F' (by decide) (by decide)]
  rw [Form.ofPlain, if_neg (by simp [hnull])]
  generalize boolWord? (c :: rest) = b at hbool ⊢
  subst hbool
  rfl

/-- An integer is read back as it was written. -/
theorem ofPlain_chars (w : Whole) : Form.ofPlain w.chars = .number (.whole w) := by
  have hfits : Whole.ofInt? w.1 = some w := dif_pos w.2
  have hinteger : Form.integer? w.chars = some (.number (.whole w)) := by
    rw [Form.integer?, readInteger_chars, Option.bind_some, Form.ofInteger?, hfits]
  rw [ofPlain_of_isNumberText (Json.isNumberText_chars w), hinteger]

/-! ## Literals -/

/-- An exponent without a plus sign. -/
def exponentChars : Option Int → List Char
  | none => []
  | some e => 'e' :: ((if e < 0 then ['-'] else []) ++ digitChars e.natAbs)

/-- The text of a literal, its exponent without a plus sign. -/
def literalChars (l : Literal) : List Char :=
  l.whole ++ ((if l.fraction.isEmpty then [] else '.' :: l.fraction) ++ exponentChars l.written)

theorem scientific_eq (hne : ds ≠ []) (e : Int) :
    Layout.scientific false ds e = literalChars ⟨ds.take 1, ds.drop 1, some e⟩ := by
  unfold Layout.scientific
  cases ds with
  | nil => exact absurd rfl hne
  | cons c more => cases more <;> simp [literalChars, exponentChars]

/-- The two formats differ in the exponent alone. -/
theorem magnitudeChars_eq (x : Binary64) :
    numberLayout.magnitudeChars x = literalChars (Literal.ofDecimal (x.shortest .even)) := by
  have hjson := Json.Literal.magnitudeChars_eq x
  generalize hd : x.shortest .even = d at hjson
  have hd' : x.shortest numberLayout.tie = d ∧ x.shortest Json.numberLayout.tie = d := ⟨hd, hd⟩
  -- in place, the literal has no exponent
  have hplace : (Literal.ofDecimal d).written = none →
      (Literal.ofDecimal d).chars = literalChars (Literal.ofDecimal d) := by
    intro h
    rw [Literal.chars, literalChars, h]
    rfl
  unfold Layout.magnitudeChars at hjson ⊢
  simp only [hd'.1, hd'.2] at hjson ⊢
  by_cases hzero : d.digits = 0
  · rw [if_pos hzero] at hjson ⊢
    rw [← hplace (by rw [Literal.ofDecimal, if_pos hzero]), ← hjson]
    rfl
  rw [if_neg hzero] at hjson ⊢
  by_cases hin : -5 < d.exponent + (digitChars d.digits).length ∧
      d.exponent + (digitChars d.digits).length ≤ 16
  · have hnone : (Literal.ofDecimal d).written = none := by
      simp only [Literal.ofDecimal, if_neg hzero, if_pos hin]
      split
      · rfl
      · split <;> rfl
    rw [← hplace hnone, ← hjson]
    exact (if_pos hin).trans (if_pos hin).symm
  · refine (if_neg hin).trans ?_
    simp only [Literal.ofDecimal, if_neg hzero, if_neg hin]
    exact scientific_eq (Decimal.digitChars_ne_nil _) _

end

namespace Literal

variable {l : Literal}

theorem stopsAt_exponentChars (e : Option Int) : StopsAt Char.isDigit (exponentChars e) := by
  cases e with
  | none => exact stopsAt_nil _
  | some e => exact stopsAt_cons (by decide)

theorem readExponent_exponentChars (e : Option Int) :
    Decimal.readExponent (exponentChars e) = some (e.getD 0) := by
  cases e with
  | none => rfl
  | some e =>
    have hdigits : ∀ c ∈ digitChars e.natAbs, c.isDigit = true := fun c =>
      Decimal.isDigit_of_mem_digitChars
    have hwhole : ¬((digitChars e.natAbs).isEmpty = true ∨
        (!(digitChars e.natAbs).all Char.isDigit) = true) := by
      simp only [List.isEmpty_iff, Bool.not_eq_true', not_or, Bool.not_eq_false, List.all_eq_true]
      exact ⟨Decimal.digitChars_ne_nil _, hdigits⟩
    unfold exponentChars Decimal.readExponent
    by_cases hneg : e < 0
    · have hvalue : -(e.natAbs : Int) = e := by omega
      simp only [if_pos hneg, List.singleton_append]
      rw [if_neg (by decide), if_neg hwhole, Decimal.ofDigits_digitChars]
      exact congrArg some hvalue
    · have hvalue : (e.natAbs : Int) = e := by omega
      simp only [if_neg hneg, List.nil_append]
      obtain ⟨c, ds, hds⟩ := List.exists_cons_of_ne_nil (Decimal.digitChars_ne_nil e.natAbs)
      obtain ⟨hminus, hplus⟩ := ne_sign_of_isDigit (hdigits c (hds ▸ List.mem_cons_self ..))
      rw [if_neg (by decide)]
      split
      -- digits have no sign of their own
      · next heq => exact absurd (List.cons.inj (hds.symm.trans heq)).1 hminus
      · next heq => exact absurd (List.cons.inj (hds.symm.trans heq)).1 hplus
      · rw [if_neg hwhole, Decimal.ofDigits_digitChars]
        exact congrArg some hvalue

/-- The digits of a literal are all taken. -/
theorem readUnsigned_literalChars (h : l.Regular) :
    Decimal.readUnsigned (literalChars l) = some l.value := by
  have hread := readExponent_exponentChars l.written
  have hwhole : l.whole.isEmpty = false := by simpa using h.whole.ne_nil
  unfold Decimal.readUnsigned literalChars
  by_cases hf : l.fraction = []
  · -- without a fraction there is an exponent, which ends the digits
    obtain ⟨htake, hdrop, -⟩ := h.whole.cut (stopsAt_exponentChars l.written)
    obtain ⟨e, he⟩ := Option.isSome_iff_exists.1 (h.marked hf)
    obtain ⟨tail, htail⟩ : ∃ tail, exponentChars l.written = 'e' :: tail := by
      rw [he]
      exact ⟨_, rfl⟩
    have hempty : ofDigits (ofDigits 0 l.whole) [] = ofDigits 0 l.whole := rfl
    rw [htail] at htake hdrop hread
    simp [hf, htail, htake, hdrop, hwhole, hread, hempty, Literal.value]
  · have hpoint : StopsAt Char.isDigit ('.' :: (l.fraction ++ exponentChars l.written)) :=
      stopsAt_cons (by decide)
    obtain ⟨htake, hdrop, -⟩ := h.whole.cut hpoint
    obtain ⟨htake', hdrop'⟩ :=
      takeWhile_append_of_stopsAt h.fraction (stopsAt_exponentChars l.written)
    simp [hf, htake, hdrop, htake', hdrop', hread, Literal.value, Decimal.ofDigits_append]

theorem exists_literalChars_eq_cons (h : l.Regular) :
    ∃ c rest, literalChars l = c :: rest ∧ c.isDigit = true := h.whole.exists_lead _

/-- The text of a literal is made of the characters that JSON has for it. -/
theorem isNumberText_literalChars (h : l.Regular) : IsNumberText (literalChars l) where
  lead := by
    obtain ⟨c, rest, heq, hc⟩ := exists_literalChars_eq_cons h
    exact ⟨c, rest, heq, Or.inr hc⟩
  chars := by
    intro c hc
    refine h.isNumberText.chars c ?_
    have hexponent : ∀ c ∈ exponentChars l.written, c ∈ Literal.exponentChars l.written := by
      cases l.written with
      | none => exact fun _ => id
      | some e =>
        intro c hc
        simp only [exponentChars, Literal.exponentChars, List.mem_cons, List.mem_append] at hc ⊢
        rcases hc with hc | hc | hc
        · exact Or.inl hc
        · split at hc
          · next hneg => exact Or.inr (Or.inl (by rw [if_pos hneg, List.mem_singleton.1 hc]))
          · cases hc
        · exact Or.inr (Or.inr hc)
    simp only [literalChars, Literal.chars, List.mem_append] at hc ⊢
    rcases hc with hc | hc | hc
    · exact Or.inl hc
    · exact Or.inr (Or.inl hc)
    · exact Or.inr (Or.inr (hexponent c hc))

/-- A literal has a point or an exponent. -/
theorem exists_mem_literalChars (h : l.Regular) : ∃ c ∈ literalChars l, c.isDigit = false := by
  by_cases hf : l.fraction = []
  · obtain ⟨e, he⟩ := Option.isSome_iff_exists.1 (h.marked hf)
    exact ⟨'e', by simp [literalChars, he, exponentChars], by decide⟩
  · exact ⟨'.', by simp [literalChars, hf], by decide⟩

/-! ## With a sign -/

/-- A literal is no integer. -/
theorem readInteger_signed (h : l.Regular) (negative : Bool) :
    readInteger (if negative then '-' :: literalChars l else literalChars l) = none := by
  obtain ⟨d, hd, hdigit⟩ := exists_mem_literalChars h
  have hmagnitude : readMagnitude (literalChars l) = none := by
    rw [readMagnitude_eq (isNumberText_literalChars h).chars, digitsOf?_eq_none hd hdigit, ite_self]
  cases negative with
  | true =>
    simp only [if_true, readInteger, hmagnitude]
    rfl
  | false =>
    obtain ⟨c, rest, heq, hc⟩ := exists_literalChars_eq_cons h
    rw [heq] at hmagnitude ⊢
    rw [if_neg Bool.false_ne_true, readInteger_of_isDigit hc, hmagnitude]
    rfl

theorem hasLeadingZero_signed (h : l.Regular) (negative : Bool) :
    hasLeadingZero (if negative then '-' :: literalChars l else literalChars l) = false := by
  obtain ⟨d, hd, hdigit⟩ := exists_mem_literalChars h
  cases negative with
  | true => exact hasLeadingZero_eq_false hd hdigit
  | false =>
    obtain ⟨c, rest, heq, hc⟩ := exists_literalChars_eq_cons h
    rw [heq] at hd ⊢
    rw [← dropSign_of_isDigit hc rest] at hd
    exact hasLeadingZero_eq_false hd hdigit

/-- A literal is read as the nearest float, within their range. -/
theorem readFloat_signed (h : l.Regular) (negative : Bool) :
    readFloat (if negative then '-' :: literalChars l else literalChars l) =
      if (l.value.toBinary negative).isFinite then some (l.value.toBinary negative) else none := by
  have hvalue := readUnsigned_literalChars h
  obtain ⟨c, rest, heq, hc⟩ := exists_literalChars_eq_cons h
  obtain ⟨hminus, hplus⟩ := ne_sign_of_isDigit hc
  have hpoint : c ≠ '.' := by
    rintro rfl
    cases hc
  rw [heq] at hvalue ⊢
  cases negative with
  | true =>
    have hread : Decimal.readBinary ('-' :: c :: rest) = some (l.value.toBinary true) := by
      rw [Decimal.readBinary, hvalue]
      rfl
    simp [readFloat, hpoint.symm, hread]
  | false =>
    have hread : Decimal.readBinary (c :: rest) = some (l.value.toBinary false) := by
      rw [Decimal.readBinary, hvalue]
      · rfl
      · exact fun _ h => absurd (List.cons.inj h).1 hminus
      · exact fun _ h => absurd (List.cons.inj h).1 hplus
    simp [readFloat, hpoint.symm, hminus.symm, hplus.symm, hread]

end Literal

/-! ## Floats -/

section

variable {x : Binary64}

theorem chars_of_isFinite (hx : x.isFinite = true) :
    numberLayout.chars x = if x.negative then '-' :: literalChars (Json.literalOf x)
      else literalChars (Json.literalOf x) := by
  obtain ⟨hnan, hinf⟩ := Binary64.kinds_of_isFinite hx
  rw [Layout.chars, hnan, hinf]
  simp only [Bool.false_eq_true, if_false, magnitudeChars_eq]
  rfl

theorem isNumberText_chars_of_isFinite (hx : x.isFinite = true) :
    IsNumberText (numberLayout.chars x) := by
  have hbody := Literal.isNumberText_literalChars
    (Json.Literal.regular_ofDecimal (x.shortest .even))
  rw [chars_of_isFinite hx]
  split
  · exact hbody.minus
  · exact hbody

/-- A finite float is read back as it was. -/
theorem ofPlain_chars_of_isFinite (hx : x.isFinite = true) :
    Form.ofPlain (numberLayout.chars x) = .number (.float x) := by
  have hregular : (Json.literalOf x).Regular := Json.Literal.regular_ofDecimal (x.shortest .even)
  have hnearest : (Json.literalOf x).value.toBinary x.negative = x :=
    Binary64.toBinary_shortest_eq hx (Json.Literal.laid_ofDecimal _).toBinary_value
  have hfloat := Literal.readFloat_signed hregular x.negative
  rw [hnearest, if_pos hx] at hfloat
  rw [ofPlain_of_isNumberText (isNumberText_chars_of_isFinite hx), chars_of_isFinite hx,
    Form.integer?, Literal.readInteger_signed hregular, Option.bind_none,
    Literal.hasLeadingZero_signed hregular, hfloat]
  rfl

/-- The texts of the floats that are no real numbers. -/
theorem chars_of_not_isFinite (hx : x.isFinite = false) :
    x.isNaN = true ∧ numberLayout.chars x = ".nan".toList ∨
      x = Binary64.infinity false ∧ numberLayout.chars x = ".inf".toList ∨
      x = Binary64.infinity true ∧ numberLayout.chars x = "-.inf".toList := by
  cases hnan : x.isNaN with
  | true => exact Or.inl ⟨rfl, by rw [Layout.chars, if_pos hnan]; rfl⟩
  | false =>
    have hinf : x.isInfinite = true := by
      simp only [Binary64.isFinite, Binary64.isNaN, Binary64.isInfinite, decide_eq_false_iff_not,
        decide_eq_true_eq] at *
      omega
    have hself := Binary64.eq_infinity hinf
    right
    rw [Layout.chars, hnan, hinf]
    cases hsign : x.negative with
    | false =>
      rw [hsign] at hself
      exact Or.inl ⟨hself, rfl⟩
    | true =>
      rw [hsign] at hself
      exact Or.inr ⟨hself, rfl⟩

/-- A float is read back as it was, a NaN as a NaN. -/
theorem exists_ofPlain_chars (x : Binary64) :
    ∃ y, Form.ofPlain (numberLayout.chars x) = .number (.float y) ∧ y.same x = true := by
  cases hx : x.isFinite with
  | true => exact ⟨x, ofPlain_chars_of_isFinite hx, Binary64.same_self x⟩
  | false =>
    obtain ⟨hnan, hchars⟩ | ⟨rfl, hchars⟩ | ⟨rfl, hchars⟩ := chars_of_not_isFinite hx
    · refine ⟨Binary64.nan, by rw [hchars]; decide, ?_⟩
      have hword : Binary64.nan.isNaN = true := by decide
      simp [Binary64.same, hnan, hword]
    · exact ⟨_, by rw [hchars]; decide, Binary64.same_self _⟩
    · exact ⟨_, by rw [hchars]; decide, Binary64.same_self _⟩

end

end Yaml

end Keepsake
