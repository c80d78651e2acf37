import Keepsake.Proofs.Yaml.Quoted
/-!
# What is written may stand in a document

A document with a character that is not allowed is refused as a whole. A text is written plain, in
single quotes or as a literal scalar only if its characters may be written as themselves, and else
in double quotes, which escape the others.
-/

namespace Keepsake.Yaml

theorem isAllowed_of_isPrintable {c : Char} (h : isPrintable c = true) : isAllowed c = true := by
  simp only [isPrintable, isAllowed, Bool.or_eq_true, Bool.and_eq_true, decide_eq_true_eq,
    ne_eq] at h ⊢
  omega

theorem all_isAllowed_of_all_isPrintable {cs : List Char} (h : cs.all isPrintable = true) :
    cs.all isAllowed = true :=
  List.all_eq_true.2 fun c hc => isAllowed_of_isPrintable (List.all_eq_true.1 h c hc)

theorem all_isAllowed_singleBody (afterBreak : Bool) {cs : List Char}
    (h : cs.all isAllowed = true) :
    (singleBody afterBreak cs).all isAllowed = true := by
  have hindent : indentation.all isAllowed = true := by decide
  have hquote : isAllowed '\'' = true := by decide
  induction cs generalizing afterBreak with
  | nil => cases afterBreak <;> decide
  | cons c cs ih =>
    rw [List.all_cons, Bool.and_eq_true] at h
    unfold singleBody
    split
    · simp [h.1, ih true h.2]
    · cases afterBreak <;> by_cases hq : c = '\'' <;> simp [hq, hindent, hquote, h.1, ih false h.2]

theorem all_isAllowed_doubleChar (c : Char) : (doubleChar c).all isAllowed = true := by
  have hslash : isAllowed '\\' = true := by decide
  have hhex : ∀ width n, (upperHex width n).all isAllowed = true := by
    have hdigit : ∀ m < 16, isAllowed (upperHexDigit m) = true := by decide
    intro width
    induction width with
    | zero => exact fun _ => rfl
    | succ width ih =>
      intro n
      rw [upperHex, List.all_append, ih, Bool.true_and, List.all_cons,
        hdigit _ (Nat.mod_lt n (by decide))]
      rfl
  unfold doubleChar
  split
  · next h => simp [isAllowed_of_isPrintable h.1]
  · split
    · next l hl =>
      have hl : isAllowed l = true := by
        unfold letterOf? at hl
        split at hl <;> cases hl <;> decide
      simp [hslash, hl]
    · simp only []
      split
      · simp [hslash, hhex, show isAllowed 'x' = true by decide]
      · split
        · simp [hslash, hhex, show isAllowed 'u' = true by decide]
        · simp [hslash, hhex, show isAllowed 'U' = true by decide]

theorem all_isAllowed_escape {cs : List Char} (h : cs.all isPrintable = true) :
    (Json.escape cs).all isAllowed = true := by
  have hslash : isAllowed '\\' = true := by decide
  rw [Json.escape, List.all_flatMap, List.all_eq_true]
  intro c hc
  have hp := List.all_eq_true.1 h c hc
  obtain ⟨l, hl, hread, -⟩ | ⟨hl, -⟩ := escapeChar_of_isPrintable hp
  · have hletter : isAllowed l = true := by
      unfold escapeLetter? at hread
      split at hread <;> first | decide | cases hread
    simp [hl, hslash, hletter]
  · simp [hl, isAllowed_of_isPrintable hp]

/-- Whatever is written for a text may stand in a document. -/
theorem all_isAllowed_textChars (cs : List Char) : (textChars cs).all isAllowed = true := by
  cases h : styleOf cs with
  | plain =>
    have hp := (allowsPlain_of_styleOf h).1
    simp only [allowsPlain, Bool.and_eq_true] at hp
    rw [textChars_of_plain h]
    exact List.all_eq_true.2 fun c hc =>
      isAllowed_of_isPrintable (List.all_eq_true.1 hp.1.1.1.1 c (mem_of_mem_trimEnd hc))
  | single =>
    have hs := allowsSingle_of_styleOf h
    simp only [allowsSingle, Bool.and_eq_true] at hs
    have hbody := all_isAllowed_singleBody false (all_isAllowed_of_all_isPrintable hs.1.1)
    rw [textChars_of_single h]
    simp [hbody, show isAllowed '\'' = true by decide]
  | double =>
    rw [textChars_of_double h]
    simp [List.all_flatMap, all_isAllowed_doubleChar, show isAllowed '"' = true by decide]
  | literal =>
    cases hw : cs.all isWhiteSpace with
    | true =>
      rw [textChars_of_literal_blank h hw, List.all_cons, Bool.and_eq_true, List.all_eq_true]
      refine ⟨by decide, ?_⟩
      intro c hc
      rcases mem_literalHints hc with rfl | rfl | rfl <;> decide
    | false =>
      have hl := (allowsLiteral_of_styleOf h).2
      simp only [allowsLiteral, Bool.and_eq_true] at hl
      rw [textChars_of_literal h hw, Json.stringChars]
      simp [all_isAllowed_escape hl.1.1, show isAllowed '"' = true by decide]

end Keepsake.Yaml
