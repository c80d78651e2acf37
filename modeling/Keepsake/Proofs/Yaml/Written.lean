import Keepsake.Yaml.Flow
import Keepsake.Yaml.Writer
/-!
# What is written for a text

Each style has one written form on one line. Only two of them lose something: white space at the
end of a plain scalar is cut off, and of a literal scalar that holds nothing but white space the
header alone is left. A literal scalar that holds more takes several lines, so it becomes a JSON
string.
-/

namespace Keepsake.Yaml

/-! ## White space at the end -/

theorem trimEnd_append (a b : List Char) :
    trimEnd (a ++ b) = if b.all isWhiteSpace then trimEnd a else a ++ trimEnd b := by
  unfold trimEnd dropEndWhile
  rw [List.reverse_append, List.dropWhile_append, ← List.all_reverse]
  generalize b.reverse = r
  have hempty : (r.dropWhile isWhiteSpace).isEmpty = r.all isWhiteSpace := by
    induction r with
    | nil => rfl
    | cons c r ih => by_cases hc : isWhiteSpace c = true <;> simp [hc, ih]
  rw [hempty]
  split <;> simp

theorem trimEnd_concat {a : List Char} {c : Char} (h : isWhiteSpace c = false) :
    trimEnd (a ++ [c]) = a ++ [c] := dropEndWhile_append_of_not a h

/-- What is left does not end in white space. -/
theorem not_isWhiteSpace_of_getLast?_trimEnd {cs : List Char} {c : Char}
    (h : (trimEnd cs).getLast? = some c) : isWhiteSpace c = false := by
  unfold trimEnd dropEndWhile at h
  rw [List.getLast?_reverse] at h
  have := List.head?_dropWhile_not isWhiteSpace cs.reverse
  rw [h] at this
  simpa using this

/-- A text is cut exactly if it ends in white space. -/
theorem trimEnd_eq_self_iff {cs : List Char} :
    trimEnd cs = cs ↔ ∀ c, cs.getLast? = some c → isWhiteSpace c = false := by
  constructor
  · intro h c hc
    rw [← h] at hc
    exact not_isWhiteSpace_of_getLast?_trimEnd hc
  · intro h
    rcases List.eq_nil_or_concat cs with rfl | ⟨a, c, rfl⟩
    · rfl
    · rw [List.concat_eq_append] at h ⊢
      exact trimEnd_concat (h c (by simp))

/-! ## The written forms -/

theorem mem_literalHints {cs : List Char} {c : Char} (h : c ∈ literalHints cs) :
    c = '2' ∨ c = '-' ∨ c = '+' := by
  unfold literalHints at h
  rw [List.mem_append] at h
  rcases h with h | h
  · split at h
    · exact Or.inl (List.mem_singleton.1 h)
    · cases h
  · split at h
    · exact Or.inr (Or.inl (List.mem_singleton.1 h))
    · split at h
      · exact Or.inr (Or.inr (List.mem_singleton.1 h))
      · exact Or.inr (Or.inl (List.mem_singleton.1 h))
    · split at h
      · exact Or.inr (Or.inl (List.mem_singleton.1 h))
      · split at h
        · exact Or.inr (Or.inr (List.mem_singleton.1 h))
        · cases h

theorem isWhiteSpace_of_mem_literalHints {cs : List Char} {c : Char} (h : c ∈ literalHints cs) :
    isWhiteSpace c = false ∧ c ≠ '\n' := by
  rcases mem_literalHints h with rfl | rfl | rfl <;> decide

theorem all_isWhiteSpace_literalBody (afterBreak : Bool) (cs : List Char) :
    (literalBody afterBreak cs).all isWhiteSpace = cs.all isWhiteSpace := by
  have hblanks : indentation.all isWhiteSpace = true := by decide
  induction cs generalizing afterBreak with
  | nil => rfl
  | cons c rest ih =>
    unfold literalBody
    split
    · simp [ih]
    · cases afterBreak <;> simp [ih, hblanks]

theorem any_isBreak_upperHex (width n : Nat) : (upperHex width n).any isBreak = false := by
  have hdigit : ∀ m < 16, isBreak (upperHexDigit m) = false := by decide
  induction width generalizing n with
  | zero => rfl
  | succ width ih =>
    rw [upperHex, List.any_append, ih, Bool.false_or, List.any_cons,
      hdigit _ (Nat.mod_lt n (by decide))]
    rfl

/-- A letter behind a backslash is read as what it was written for. -/
theorem escapeLetter?_of_letterOf? {c l : Char} (h : letterOf? c = some l) :
    escapeLetter? l = some c ∧ isBreak l = false := by
  have hc : c = Char.ofNat c.toNat := (Char.ofNat_toNat c).symm
  unfold letterOf? at h
  split at h <;> cases h <;> next hn => rw [hn] at hc; subst hc; decide

/-- What a character between double quotes becomes has no line break. -/
theorem any_isBreak_doubleChar (c : Char) : (doubleChar c).any isBreak = false := by
  unfold doubleChar
  split
  · next h => simpa using h.2.1
  · split
    · next l hl =>
      have hslash : isBreak '\\' = false := by decide
      simp [(escapeLetter?_of_letterOf? hl).2, hslash]
    · simp only []
      split
      · simp [any_isBreak_upperHex, isBreak]
      · split <;> simp [any_isBreak_upperHex, isBreak]

theorem newline_not_mem_of_any_isBreak {cs : List Char} (h : cs.any isBreak = false) :
    '\n' ∉ cs := by
  intro hmem
  have := List.any_eq_false.1 h _ hmem
  exact this rfl

theorem newline_not_mem_singleBody (afterBreak : Bool) {cs : List Char} (h : '\n' ∉ cs) :
    '\n' ∉ singleBody afterBreak cs := by
  induction cs generalizing afterBreak with
  | nil => cases afterBreak <;> decide
  | cons c rest ih =>
    rw [List.mem_cons, not_or] at h
    have hrest := fun afterBreak => ih afterBreak h.2
    unfold singleBody
    split
    · simp [h.1, hrest]
    · cases afterBreak <;> by_cases hq : c = '\'' <;> simp [hq, h.1, hrest, indentation]

section

variable {cs : List Char}

theorem newline_not_mem_of_styleOf (h : styleOf cs = .plain ∨ styleOf cs = .single) :
    '\n' ∉ cs := by
  unfold styleOf at h
  split at h
  · split at h <;> rcases h with h | h <;> cases h
  · next hn => simpa using hn

theorem allowsPlain_of_styleOf (h : styleOf cs = .plain) :
    allowsPlain cs = true ∧ isAmbiguous cs = false := by
  unfold styleOf at h
  split at h
  · split at h <;> cases h
  · split at h
    · next hp => simpa using hp
    · split at h <;> cases h

theorem allowsSingle_of_styleOf (h : styleOf cs = .single) : allowsSingle cs = true := by
  unfold styleOf at h
  split at h
  · split at h <;> cases h
  · split at h
    · cases h
    · split at h
      · assumption
      · cases h

theorem allowsLiteral_of_styleOf (h : styleOf cs = .literal) :
    '\n' ∈ cs ∧ allowsLiteral cs = true := by
  unfold styleOf at h
  split at h
  · next hn =>
    split at h
    · next hl => exact ⟨by simpa using hn, hl⟩
    · cases h
  · split at h
    · cases h
    · split at h <;> cases h

theorem mem_of_mem_trimEnd {c : Char} (h : c ∈ trimEnd cs) : c ∈ cs := by
  obtain ⟨tail, heq, -⟩ := exists_append_dropEndWhile isWhiteSpace cs
  rw [heq]
  exact List.mem_append_left _ h

/-- No text is written so that it begins like a document. -/
@[simp]
theorem withoutMarker_styled (cs : List Char) : withoutMarker (styled cs) = styled cs := by
  have hmarker : ∀ rest, styled cs ≠ '-' :: '-' :: '-' :: ' ' :: rest := by
    intro rest heq
    unfold styled at heq
    cases hstyle : styleOf cs with
    | plain =>
      -- a text that looks like a marker is not written plain
      rw [hstyle] at heq
      have hplain := (allowsPlain_of_styleOf hstyle).1
      have heq : cs = '-' :: '-' :: '-' :: ' ' :: rest := heq
      simp [heq, allowsPlain, hasIndicator, looksLikeMarker] at hplain
    | single | double | literal =>
      rw [hstyle] at heq
      exact absurd (List.cons.inj heq).1 (by decide)
  unfold withoutMarker
  split
  · next rest heq => exact absurd heq (hmarker rest)
  · rfl

theorem textChars_of_not_mem (h : '\n' ∉ trimEnd (styled cs)) :
    textChars cs = trimEnd (styled cs) := by
  unfold textChars
  rw [withoutMarker_styled, if_neg (by simpa using h)]

theorem textChars_of_plain (h : styleOf cs = .plain) : textChars cs = trimEnd cs := by
  have hstyled : styled cs = cs := by rw [styled, h]
  rw [textChars_of_not_mem, hstyled]
  rw [hstyled]
  exact fun hmem => newline_not_mem_of_styleOf (Or.inl h) (mem_of_mem_trimEnd hmem)

theorem textChars_of_single (h : styleOf cs = .single) :
    textChars cs = '\'' :: (singleBody false cs ++ ['\'']) := by
  have hstyled : trimEnd (styled cs) = '\'' :: (singleBody false cs ++ ['\'']) := by
    rw [styled, h]
    exact trimEnd_concat (a := '\'' :: singleBody false cs) (by decide)
  rw [textChars_of_not_mem, hstyled]
  rw [hstyled]
  simp [newline_not_mem_singleBody false (newline_not_mem_of_styleOf (Or.inr h))]

theorem textChars_of_double (h : styleOf cs = .double) :
    textChars cs = '"' :: (cs.flatMap doubleChar ++ ['"']) := by
  have hstyled : trimEnd (styled cs) = '"' :: (cs.flatMap doubleChar ++ ['"']) := by
    rw [styled, h]
    exact trimEnd_concat (a := '"' :: cs.flatMap doubleChar) (by decide)
  rw [textChars_of_not_mem, hstyled]
  rw [hstyled]
  simp [fun c => newline_not_mem_of_any_isBreak (any_isBreak_doubleChar c)]

theorem trimEnd_header : trimEnd ('|' :: literalHints cs) = '|' :: literalHints cs := by
  rw [trimEnd_eq_self_iff]
  intro c hc
  rcases List.mem_cons.1 (List.mem_of_getLast? hc) with rfl | hc
  · decide
  · exact (isWhiteSpace_of_mem_literalHints hc).1

/-- Of white space in the literal style only the header is left. -/
theorem textChars_of_literal_blank (h : styleOf cs = .literal) (hw : cs.all isWhiteSpace = true) :
    textChars cs = '|' :: literalHints cs := by
  have hstyled : trimEnd (styled cs) = '|' :: literalHints cs := by
    rw [styled, h]
    show trimEnd (('|' :: literalHints cs) ++ '\n' :: literalBody true cs) = _
    rw [trimEnd_append, if_pos, trimEnd_header]
    rw [List.all_cons, all_isWhiteSpace_literalBody, hw]
    decide
  rw [textChars_of_not_mem, hstyled]
  rw [hstyled]
  intro hmem
  rcases List.mem_cons.1 hmem with hmem | hmem
  · cases hmem
  · exact (isWhiteSpace_of_mem_literalHints hmem).2 rfl

/-- Any other text in the literal style becomes a JSON string. -/
theorem textChars_of_literal (h : styleOf cs = .literal) (hw : cs.all isWhiteSpace = false) :
    textChars cs = Json.stringChars cs := by
  unfold textChars
  rw [withoutMarker_styled, if_pos]
  rw [styled, h]
  show (trimEnd (('|' :: literalHints cs) ++ ('\n' :: literalBody true cs))).contains '\n' = true
  have hbody : ('\n' :: literalBody true cs).all isWhiteSpace = false := by
    rw [List.all_cons, all_isWhiteSpace_literalBody, hw, Bool.and_false]
  have hbody' : (literalBody true cs).all isWhiteSpace = false := by
    rw [all_isWhiteSpace_literalBody, hw]
  have hline : trimEnd ('\n' :: literalBody true cs) = '\n' :: trimEnd (literalBody true cs) := by
    have := trimEnd_append ['\n'] (literalBody true cs)
    rwa [hbody', if_neg (by decide)] at this
  rw [trimEnd_append, hbody, if_neg (by decide), hline]
  simp

end

end Keepsake.Yaml
