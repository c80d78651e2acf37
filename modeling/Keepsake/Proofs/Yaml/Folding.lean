import Keepsake.Yaml.Flow
import Keepsake.Yaml.Writer
/-!
# The text of a scalar so far

The readers of scalars hold blanks and line breaks back until they know what becomes of them.
`settle` decides it, so the text read so far is `f.settle.text`, and each character adds itself to
that (`add`): also a separator of lines or paragraphs, which is a line break to the reader but stays
in the text. Only blanks behind a separator are lost.
-/


namespace Keepsake.Yaml

/-- The separators of lines and of paragraphs. -/
def isSeparator (c : Char) : Bool := c = '\u2028' || c = '\u2029'

theorem isBreak_of_isSeparator {c : Char} (h : isSeparator c = true) : isBreak c = true := by
  simp only [isSeparator, isBreak, Bool.or_eq_true, decide_eq_true_eq] at h ⊢
  rcases h with rfl | rfl <;> simp

theorem breakChar_of_isSeparator {c : Char} (h : isSeparator c = true) : breakChar c = c := by
  unfold breakChar
  exact if_pos (by simpa [isSeparator] using h)

/--
Of the characters that may be written as themselves only the line feed and the separators are
breaks.
-/
theorem isSeparator_of_isBreak {c : Char} (hp : isPrintable c = true) (hb : isBreak c = true)
    (hn : c ≠ '\n') : isSeparator c = true := by
  simp only [isBreak, Bool.or_eq_true, decide_eq_true_eq, or_assoc] at hb
  rcases hb with rfl | rfl | rfl | rfl | rfl
  · exact absurd rfl hn
  · exact absurd hp (by decide)
  · exact absurd hp (by decide)
  · decide
  · decide

theorem isSeparator_eq_isBreak {c : Char} (hp : isPrintable c = true) (hn : c ≠ '\n') :
    isSeparator c = isBreak c := by
  rw [Bool.eq_iff_iff]
  exact ⟨isBreak_of_isSeparator, fun hb => isSeparator_of_isBreak hp hb hn⟩

theorem ne_tab_of_isPrintable {c : Char} (hp : isPrintable c = true) : c ≠ '\t' := by
  rintro rfl
  exact absurd hp (by decide)

theorem ne_return_of_isPrintable {c : Char} (hp : isPrintable c = true) : c ≠ '\r' := by
  rintro rfl
  exact absurd hp (by decide)

/-- Of the characters that may be written as themselves only the blank is one. -/
theorem isBlank_eq_isSpace {c : Char} (hp : isPrintable c = true) : isBlank c = isSpace c := by
  simp [isBlank, isSpace, ne_tab_of_isPrintable hp]

/-! ## Places -/

namespace Mark

@[simp]
theorem forward_forward (m : Mark) (a b : Nat) : (m.forward a).forward b = m.forward (a + b) := by
  simp [forward, Nat.add_assoc]

/-- The place behind characters none of which is a carriage return. -/
def after (m : Mark) : List Char → Mark
  | [] => m
  | c :: cs => (if isBreak c then m.newLine 1 else m.forward 1).after cs

theorem after_cons_of_break {c : Char} (h : isBreak c = true) (m : Mark) (cs : List Char) :
    m.after (c :: cs) = (m.newLine 1).after cs := by
  rw [after, if_pos h]

theorem after_cons {c : Char} (h : isBreak c = false) (m : Mark) (cs : List Char) :
    m.after (c :: cs) = (m.forward 1).after cs := by
  rw [after, if_neg (by simp [h])]

/-- Behind a character the column is the first one exactly if the character is a break. -/
theorem after_singleton_column_eq_zero_iff (m : Mark) (c : Char) :
    (m.after [c]).column = 0 ↔ isBreak c = true := by
  cases hb : isBreak c with
  | true => simp [after, hb, newLine]
  | false => simp [after, hb, forward]

theorem after_append (m : Mark) (a b : List Char) : m.after (a ++ b) = (m.after a).after b := by
  induction a generalizing m with
  | nil => rfl
  | cons c a ih => exact ih _

/-- On one line a place moves on by the number of characters. -/
theorem after_eq_forward {cs : List Char} (h : cs.any isBreak = false) (m : Mark) :
    m.after cs = m.forward cs.length := by
  induction cs generalizing m with
  | nil => rfl
  | cons c cs ih =>
    rw [List.any_cons, Bool.or_eq_false_iff] at h
    rw [after_cons h.1, ih h.2, forward_forward, List.length_cons, Nat.add_comm]

theorem line_le_after (m : Mark) (cs : List Char) : m.line ≤ (m.after cs).line := by
  induction cs generalizing m with
  | nil => exact Nat.le_refl _
  | cons c cs ih =>
    refine Nat.le_trans ?_ (ih _)
    split
    · exact Nat.le_succ _
    · exact Nat.le_refl _

/-- Behind a break the place is on a later line. -/
theorem line_lt_after {cs : List Char} (h : cs.any isBreak = true) (m : Mark) :
    m.line < (m.after cs).line := by
  induction cs generalizing m with
  | nil => cases h
  | cons c cs ih =>
    by_cases hc : isBreak c = true
    · rw [after_cons_of_break hc]
      exact line_le_after (m.newLine 1) cs
    · rw [after_cons (by simpa using hc)]
      exact ih (by simpa [hc] using h) (m.forward 1)

end Mark

/-! ## The text so far -/

namespace Folding

variable {f : Folding} {c : Char}

@[simp]
theorem settle_broken (f : Folding) : f.settle.broken = false := by
  unfold settle
  split
  · rfl
  · next h => simpa using h

@[simp]
theorem settle_blanks (f : Folding) : f.settle.blanks = [] := by
  unfold settle
  split <;> rfl

@[simp]
theorem settle_settle_text (f : Folding) : f.settle.settle.text = f.settle.text := by
  generalize hg : f.settle = g
  have hb : g.broken = false := hg ▸ settle_broken f
  have hs : g.blanks = [] := hg ▸ settle_blanks f
  simp [settle, hb, hs]

@[simp]
theorem push_broken (f : Folding) (c : Char) : (f.push c).broken = false := settle_broken f

@[simp]
theorem push_blanks (f : Folding) (c : Char) : (f.push c).blanks = [] := settle_blanks f

@[simp]
theorem settle_push_text (f : Folding) (c : Char) :
    (f.push c).settle.text = c :: f.settle.text := by
  have hb : (f.push c).broken = false := push_broken f c
  have hs : (f.push c).blanks = [] := push_blanks f c
  unfold settle at hb ⊢
  simp only [hb, hs]
  rfl

theorem settle_blank_text (h : f.broken = false) (c : Char) :
    (f.blank c).settle.text = c :: f.settle.text := by
  simp [blank, settle, h]

theorem blank_of_broken (h : f.broken = true) (c : Char) : f.blank c = f := by simp [blank, h]

@[simp]
theorem blank_broken (f : Folding) (c : Char) : (f.blank c).broken = f.broken := by
  unfold blank
  split <;> rfl

/-- No line feed is held back, which could become a blank. -/
structure KeepsBreaks (f : Folding) : Prop where
  first : f.broken = true → f.first ≠ some '\n'
  more : f.broken = false → f.more = []

theorem keepsBreaks_start : start.KeepsBreaks := ⟨fun h => (by cases h), fun _ => rfl⟩

theorem KeepsBreaks.settle (h : f.KeepsBreaks) : f.settle.KeepsBreaks := by
  refine ⟨fun hb => ?_, fun _ => ?_⟩
  · rw [settle_broken] at hb
    cases hb
  · unfold Folding.settle
    split
    · rfl
    · next hb => exact h.more (by simpa using hb)

theorem KeepsBreaks.push (h : f.KeepsBreaks) (c : Char) : (f.push c).KeepsBreaks :=
  ⟨h.settle.first, h.settle.more⟩

theorem KeepsBreaks.blank (h : f.KeepsBreaks) (c : Char) : (f.blank c).KeepsBreaks := by
  unfold Folding.blank
  split
  · exact h
  · exact ⟨h.first, h.more⟩

/-- A separator stays in the text, unless blanks stand before it. -/
theorem KeepsBreaks.settle_lineBreak_text (h : f.KeepsBreaks) (hc : isSeparator c = true)
    (hb : f.broken = false → f.blanks = []) : (f.lineBreak c).settle.text = c :: f.settle.text := by
  have hne : c ≠ '\n' := by
    rintro rfl
    cases hc
  cases hbroken : f.broken with
  | true => simp [lineBreak, Folding.settle, hbroken, breakChar_of_isSeparator hc, h.first hbroken]
  | false =>
    simp [lineBreak, Folding.settle, hbroken, breakChar_of_isSeparator hc, hne, hb hbroken,
      h.more hbroken]

@[simp]
theorem lineBreak_broken (f : Folding) (c : Char) : (f.lineBreak c).broken = true := by
  unfold lineBreak
  split
  · assumption
  · rfl

theorem KeepsBreaks.lineBreak (h : f.KeepsBreaks) (hc : isSeparator c = true) :
    (f.lineBreak c).KeepsBreaks := by
  have hne : c ≠ '\n' := by
    rintro rfl
    cases hc
  refine ⟨fun _ => ?_, fun hb => ?_⟩
  · unfold Folding.lineBreak
    split
    · next hb => exact h.first hb
    · simp [breakChar_of_isSeparator hc, hne]
  · rw [lineBreak_broken] at hb
    cases hb

/-- Adds a character that stands for itself. -/
def add (f : Folding) (c : Char) : Folding :=
  if isBreak c then f.lineBreak c else if isBlank c then f.blank c else f.push c

/-- Inside a line every character stays. -/
theorem settle_add_text_of_not_break (hb : isBreak c = false)
    (hf : isBlank c = true → f.broken = false) :
    (f.add c).settle.text = c :: f.settle.text := by
  unfold add
  rw [if_neg (by simp [hb])]
  split
  · next hs => exact settle_blank_text (hf hs) c
  · exact settle_push_text f c

theorem add_broken_of_not_break (hb : isBreak c = false)
    (hf : isBlank c = true → f.broken = false) :
    (f.add c).broken = false := by
  unfold add
  rw [if_neg (by simp [hb])]
  split
  · next hs => rw [blank_broken, hf hs]
  · exact push_broken f c

theorem add_blanks_of_not_blank (hb : isBreak c = false) (hs : isBlank c = false) :
    (f.add c).blanks = [] := by
  simp [add, hb, hs]

/-- A blank is lost behind a line break; a separator behind a blank takes the blank away. -/
structure Accepts (f : Folding) (c : Char) : Prop where
  printable : isPrintable c = true
  ne_newline : c ≠ '\n'
  blank : isSpace c = true → f.broken = false
  separator : isBreak c = true → f.broken = false → f.blanks = []

theorem Accepts.broken_of_isBlank (h : f.Accepts c) (hs : isBlank c = true) : f.broken = false :=
  h.blank (isBlank_eq_isSpace h.printable ▸ hs)

theorem Accepts.settle_add_text (h : f.Accepts c) (hf : f.KeepsBreaks) :
    (f.add c).settle.text = c :: f.settle.text := by
  by_cases hb : isBreak c = true
  · unfold add
    rw [if_pos hb]
    exact hf.settle_lineBreak_text (isSeparator_of_isBreak h.printable hb h.ne_newline)
      (h.separator hb)
  · exact settle_add_text_of_not_break (by simpa using hb) h.broken_of_isBlank

theorem Accepts.keepsBreaks_add (h : f.Accepts c) (hf : f.KeepsBreaks) : (f.add c).KeepsBreaks := by
  unfold add
  split
  · next hb => exact hf.lineBreak (isSeparator_of_isBreak h.printable hb h.ne_newline)
  · split
    · exact hf.blank c
    · exact hf.push c

theorem Accepts.add_broken (h : f.Accepts c) : (f.add c).broken = isBreak c := by
  by_cases hb : isBreak c = true
  · unfold add
    rw [if_pos hb, lineBreak_broken, hb]
  · have hb : isBreak c = false := by simpa using hb
    rw [add_broken_of_not_break hb h.broken_of_isBlank, hb]

/-- Blanks are held back only behind a blank. -/
theorem Accepts.add_blanks (h : f.Accepts c) (hs : isSpace c = false) (hb : isBreak c = false) :
    (f.add c).blanks = [] :=
  add_blanks_of_not_blank hb ((isBlank_eq_isSpace h.printable).trans hs)

/-! ### Texts on one line -/

theorem foldl_add_broken {u : List Char} (hb : u.any isBreak = false) (hf : f.broken = false) :
    (u.foldl add f).broken = false := by
  induction u generalizing f with
  | nil => exact hf
  | cons c u ih =>
    rw [List.any_cons, Bool.or_eq_false_iff] at hb
    exact ih hb.2 (add_broken_of_not_break hb.1 fun _ => hf)

theorem settle_foldl_add_text {u : List Char} (hb : u.any isBreak = false) (hf : f.broken = false) :
    (u.foldl add f).settle.text = u.reverse ++ f.settle.text := by
  induction u generalizing f with
  | nil => rfl
  | cons c u ih =>
    rw [List.any_cons, Bool.or_eq_false_iff] at hb
    rw [List.foldl_cons, ih hb.2 (add_broken_of_not_break hb.1 fun _ => hf),
      settle_add_text_of_not_break hb.1 fun _ => hf]
    simp

/-- A text that does not end in a blank is read completely. -/
theorem foldl_add_text {u : List Char} (hb : u.any isBreak = false) (hf : f.broken = false)
    (hu : ∃ c, u.getLast? = some c ∧ isBlank c = false) :
    (u.foldl add f).text = u.reverse ++ f.settle.text ∧ (u.foldl add f).blanks = [] := by
  obtain ⟨c, hlast, hc⟩ := hu
  have hblanks : (u.foldl add f).blanks = [] := by
    obtain ⟨a, rfl⟩ := List.getLast?_eq_some_iff.1 hlast
    rw [List.any_append, Bool.or_eq_false_iff] at hb
    rw [List.foldl_append]
    exact add_blanks_of_not_blank (by simpa using hb.2) hc
  refine ⟨?_, hblanks⟩
  rw [← settle_foldl_add_text hb hf, settle, if_neg (by simp [foldl_add_broken hb hf]), hblanks]
  rfl

end Folding

/-! ## Pairs of characters -/

theorem hasPair_cons {p q : Char → Bool} {c : Char} {cs : List Char} :
    hasPair p q (c :: cs) = (p c && cs.head?.any q || hasPair p q cs) := by
  cases cs <;> simp [hasPair]

section

variable {f : Folding} {m : Mark} {c : Char} {cs rest : List Char}

/-- What is held back suits the text that follows. -/
structure Folding.Suits (f : Folding) (cs : List Char) : Prop where
  keepsBreaks : f.KeepsBreaks
  blank : f.broken = true → cs.head?.any isSpace = false
  separator : f.broken = false → f.blanks ≠ [] → cs.head?.any isBreak = false

theorem Folding.Suits.accepts (h : f.Suits (c :: cs)) (hp : isPrintable c = true) (hn : c ≠ '\n') :
    f.Accepts c := by
  refine ⟨hp, hn, fun hs => ?_, fun hb hf => ?_⟩
  · cases hbroken : f.broken with
    | false => rfl
    | true => simpa [hs] using h.blank hbroken
  · refine Decidable.byContradiction fun hblanks => ?_
    simpa [hb] using h.separator hf hblanks

theorem Folding.Suits.add (h : f.Suits (c :: cs)) (hp : isPrintable c = true) (hn : c ≠ '\n')
    (hsb : hasPair isSpace isBreak (c :: cs) = false)
    (hbs : hasPair isBreak isSpace (c :: cs) = false) :
    (f.add c).Suits cs := by
  have hacc := h.accepts hp hn
  rw [hasPair_cons, Bool.or_eq_false_iff, Bool.and_eq_false_iff] at hsb hbs
  refine ⟨hacc.keepsBreaks_add h.keepsBreaks, fun hb => ?_, fun hb hblanks => ?_⟩
  · rw [hacc.add_broken] at hb
    exact hbs.1.resolve_left (by simp [hb])
  · rw [hacc.add_broken] at hb
    refine hsb.1.resolve_left fun hs => hblanks (hacc.add_blanks hs hb)

end

end Keepsake.Yaml
