import Keepsake.Proofs.Yaml.Folding
import Keepsake.Proofs.Yaml.Written
/-!
# Plain scalars are read back

The writer refuses the plain style to a text in which the reader would see an indicator. But white
space at the end is cut off after that, so what is written may end in a colon. Before a line break
it ends the scalar there; behind a key, another colon follows it and it belongs to the text.
-/

namespace Keepsake.Yaml

section

variable {f : Folding} {m : Mark} {i : Int} {c before : Char} {u t tail rest : List Char}

/-- A character of a plain scalar. -/
theorem scanPlain_add (hb : isBreak c = false) (hf : f.broken = false)
    (hpending : f.isPending = true → i ≤ m.column ∧ c ≠ '#')
    (hmarker : m.column = 0 → startsMarker (c :: rest) = false)
    (hkey : endsKey (c :: rest) = false) :
    scanPlain false i f m (c :: rest) = scanPlain false i (f.add c) (m.forward 1) rest := by
  have hr : c ≠ '\r' := by
    rintro rfl
    cases hb
  have hstays : ¬((f.isPending = true ∧ (!false) = true ∧ (m.column : Int) < i) ∨
      (m.column = 0 ∧ startsMarker (c :: rest) = true) ∨ (c = '#' ∧ f.isPending = true)) := by
    rintro (⟨h, -, hlt⟩ | ⟨h, hs⟩ | ⟨rfl, h⟩)
    · exact absurd (hpending h).1 (by omega)
    · rw [hmarker h] at hs
      cases hs
    · exact (hpending h).2 rfl
  have hadd : f.add c = if isBlank c then f.blank c else f.push c := if_neg (by simp [hb])
  rw [scanPlain, hadd]
  · rw [if_neg (by simp [hb])]
    by_cases hs : isBlank c = true
    · rw [if_pos hs, if_pos hs, if_neg (by simp [hf])]
    · rw [if_neg hs, if_neg hs, if_neg hstays, if_neg (by simp), if_neg (by simp [hkey])]
  · exact fun _ h => absurd h hr

theorem startsBlank_append (h : u ≠ []) (tail t : List Char) :
    startsBlank (u ++ tail) = startsBlank (u ++ t) := by
  cases u with
  | nil => exact absurd rfl h
  | cons d u => rfl

theorem endsKey_of_hasInnerIndicator (h : hasInnerIndicator before (c :: (u ++ t)) = false)
    (hlast : (c :: u).getLast? = some ':' → startsBlank tail = false) :
    endsKey (c :: (u ++ tail)) = false := by
  by_cases hc : c = ':'
  · subst hc
    show startsBlank (u ++ tail) = false
    rcases u with _ | ⟨d, u⟩
    · exact hlast rfl
    · rw [hasInnerIndicator, Bool.or_eq_false_iff, Bool.or_eq_false_iff] at h
      rw [startsBlank_append (List.cons_ne_nil d u) tail t]
      simpa using h.1.1
  · unfold endsKey
    split
    · next h' => exact absurd (List.cons.inj h').1 hc
    · rfl

/-- A part of a plain scalar without an indicator is read, whatever stands behind it. -/
theorem scanPlain_append (hp : u.all isPrintable = true) (hb : u.any isBreak = false)
    (hin : hasInnerIndicator before (u ++ t) = false)
    (hlast : u.getLast? = some ':' → startsBlank tail = false) (hf : f.broken = false)
    (hpending : f.isPending = true → isBlank before = true ∧ i ≤ m.column) (hi : i ≤ 1)
    (hmarker : m.column = 0 → startsMarker (u ++ tail) = false) :
    scanPlain false i f m (u ++ tail) =
      scanPlain false i (u.foldl Folding.add f) (m.forward u.length) tail := by
  induction u generalizing f m before with
  | nil => rfl
  | cons c u ih =>
    rw [List.all_cons, Bool.and_eq_true] at hp
    rw [List.any_cons, Bool.or_eq_false_iff] at hb
    have hkey := endsKey_of_hasInnerIndicator hin hlast
    rw [List.cons_append, hasInnerIndicator, Bool.or_eq_false_iff, Bool.or_eq_false_iff] at hin
    have hhash : f.isPending = true → i ≤ m.column ∧ c ≠ '#' := by
      intro h
      refine ⟨(hpending h).2, ?_⟩
      rintro rfl
      simpa [(hpending h).1] using hin.1.2
    have hbroken := Folding.add_broken_of_not_break (f := f) hb.1 fun _ => hf
    -- without a break only a blank leaves anything pending, and behind it no line has begun
    have hnext : (f.add c).isPending = true → isBlank c = true ∧ i ≤ (m.forward 1).column := by
      intro h
      constructor
      · cases hs : isBlank c with
        | true => rfl
        | false => simp [Folding.isPending, hbroken, Folding.add_blanks_of_not_blank hb.1 hs] at h
      · simp only [Mark.forward]
        omega
    have hlast' : u.getLast? = some ':' → startsBlank tail = false := by
      intro h
      refine hlast ?_
      rw [List.getLast?_cons, h]
      rfl
    rw [List.cons_append] at hmarker ⊢
    rw [scanPlain_add hb.1 hf hhash hmarker hkey,
      ih hp.2 hb.2 hin.2 hlast' hbroken hnext fun h => absurd h (Nat.succ_ne_zero _),
      Mark.forward_forward,
      List.length_cons, Nat.add_comm 1, List.foldl_cons]

/-! ## Ends of plain scalars -/

/-- Whether a text is at its end or starts like an entry. -/
def startsEntry : List Char → Bool
  | [] => true
  | c :: _ => !(isBlank c || isBreak c || c = '#' || c = '\ufeff')

theorem scanPlain_endsKey (hf : f.isPending = true → i ≤ m.column) (hr : startsBlank rest = true) :
    scanPlain false i f m (':' :: rest) = some (f.result, ⟨':' :: rest, m⟩, f.broken) := by
  have hstays : ¬((f.isPending = true ∧ (!false) = true ∧ (m.column : Int) < i) ∨
      (m.column = 0 ∧ startsMarker (':' :: rest) = true) ∨ (':' = '#' ∧ f.isPending = true)) := by
    rintro (⟨h, -, hlt⟩ | ⟨-, hs⟩ | ⟨h, -⟩)
    · exact absurd (hf h) (by omega)
    · cases hs
    · cases h
  have hkey : endsKey (':' :: rest) = true := hr
  rw [scanPlain]
  · rw [if_neg (by decide), if_neg (by decide), if_neg hstays, if_neg (by simp),
      if_pos (Or.inl hkey)]
  · exact fun _ h => absurd h (by decide)

/-- The line break behind a value is consumed. -/
theorem scanPlain_newLine (hr : startsEntry rest = true) (m : Mark) :
    scanPlain false 1 f m ('\n' :: rest) = some (f.result, ⟨rest, m.newLine 1⟩, true) := by
  have hresult : (f.lineBreak '\n').result = f.result := by
    unfold Folding.lineBreak
    split <;> rfl
  have hbroken := Folding.lineBreak_broken f '\n'
  show scanPlain false 1 (f.lineBreak '\n') (m.newLine 1) rest = _
  rcases rest with _ | ⟨c, rest⟩
  · rw [scanPlain, hresult, hbroken]
  · simp only [startsEntry, Bool.not_eq_true', Bool.or_eq_false_iff] at hr
    obtain ⟨⟨⟨hblank, hbreak⟩, -⟩, -⟩ := hr
    have hreturn : c ≠ '\r' := by
      rintro rfl
      cases hbreak
    have hpending : (f.lineBreak '\n').isPending = true := by simp [Folding.isPending]
    rw [scanPlain]
    · rw [if_neg (by simp [hbreak]), if_neg (by simp [hblank]),
        if_pos (Or.inl ⟨hpending, rfl, Int.one_pos⟩), hresult, hbroken]
    · exact fun _ h => absurd h hreturn

/-! ## What is left of a text in the plain style -/

theorem startsMarker_append (hu : looksLikeMarker (u ++ t) = false) (rest : List Char) :
    startsMarker (u ++ ':' :: rest) = false := by
  unfold startsMarker
  split
  · next h => rcases u with _ | ⟨a, _ | ⟨b, _ | ⟨c, u⟩⟩⟩ <;> simp_all [looksLikeMarker]
  · next h => rcases u with _ | ⟨a, _ | ⟨b, _ | ⟨c, u⟩⟩⟩ <;> simp_all [looksLikeMarker]
  · rfl

/-- A part of a text in the plain style. -/
structure PlainPart (u t : List Char) : Prop where
  printable : u.all isPrintable = true
  noBreak : u.any isBreak = false
  noIndicator : hasInnerIndicator 'x' (u ++ t) = false
  noMarker : looksLikeMarker (u ++ t) = false

theorem PlainPart.left {v : List Char} (h : PlainPart (u ++ v) t) : PlainPart u (v ++ t) where
  printable := by
    have := h.printable
    rw [List.all_append, Bool.and_eq_true] at this
    exact this.1
  noBreak := by
    have := h.noBreak
    rw [List.any_append, Bool.or_eq_false_iff] at this
    exact this.1
  noIndicator := List.append_assoc u v t ▸ h.noIndicator
  noMarker := List.append_assoc u v t ▸ h.noMarker

theorem plainPart_textChars {cs : List Char} (h : styleOf cs = .plain) :
    ∃ t, cs = textChars cs ++ t ∧ PlainPart (textChars cs) t := by
  rw [textChars_of_plain h]
  obtain ⟨t, heq, -⟩ := exists_append_dropEndWhile isWhiteSpace cs
  change cs = trimEnd cs ++ t at heq
  obtain ⟨hallows, -⟩ := allowsPlain_of_styleOf h
  simp only [allowsPlain, hasIndicator, Bool.and_eq_true, Bool.not_eq_true',
    Bool.or_eq_false_iff] at hallows
  obtain ⟨⟨⟨⟨hp, hb⟩, -⟩, -⟩, hmarker, hin⟩ := hallows
  have hinner : hasInnerIndicator 'x' cs = false := by
    rcases cs with _ | ⟨c, cs⟩
    · rfl
    · simp only [startsIndicator, Bool.or_eq_false_iff] at hin
      rw [hasInnerIndicator, hin.2]
      by_cases hc : c = ':'
      · subst hc
        simpa [isBlank, isBreak] using hin.1.2
      · simp [hc, isBlank, isBreak]
  refine ⟨t, heq, ?_, ?_, heq ▸ hinner, heq ▸ hmarker⟩
  · rw [heq, List.all_append, Bool.and_eq_true] at hp
    exact hp.1
  · rw [heq, List.any_append, Bool.or_eq_false_iff] at hb
    exact hb.1

/-- A plain key is read up to its colon. -/
theorem PlainPart.scanPlain_key (h : PlainPart u t)
    (hu : ∃ c, u.getLast? = some c ∧ isBlank c = false) (hi : i ≤ 1) (m : Mark) (rest : List Char) :
    scanPlain false i .start m (u ++ ':' :: ' ' :: rest) =
      some (u, ⟨':' :: ' ' :: rest, m.forward u.length⟩, false) := by
  obtain ⟨htext, hblanks⟩ := Folding.foldl_add_text (f := .start) h.noBreak rfl hu
  have hbroken := Folding.foldl_add_broken (f := .start) h.noBreak rfl
  have hdone : (u.foldl Folding.add .start).isPending = false := by
    simp [Folding.isPending, hbroken, hblanks]
  rw [scanPlain_append h.printable h.noBreak h.noIndicator (fun _ => rfl) rfl
    (fun h => by cases h) hi
    fun _ => startsMarker_append h.noMarker _,
    scanPlain_endsKey (fun h => by simp [hdone] at h) rfl, hbroken, Folding.result, htext]
  simp [Folding.start, Folding.settle]

/-- A plain value is read with its line break. -/
theorem PlainPart.scanPlain_value (h : PlainPart u t)
    (hu : ∃ c, u.getLast? = some c ∧ isBlank c = false)
    (hcolon : u.getLast? ≠ some ':') (hm : m.column ≠ 0) (hr : startsEntry rest = true) :
    scanPlain false 1 .start m (u ++ '\n' :: rest) =
      some (u, ⟨rest, (m.forward u.length).newLine 1⟩, true) := by
  obtain ⟨htext, -⟩ := Folding.foldl_add_text (f := .start) h.noBreak rfl hu
  rw [scanPlain_append h.printable h.noBreak h.noIndicator (fun h => absurd h hcolon) rfl
    (fun h => by cases h) (Int.le_refl 1) fun h => absurd h hm, scanPlain_newLine hr,
    Folding.result,
    htext]
  simp [Folding.start, Folding.settle]

/-- A plain value ends before a colon at the end of its line. -/
theorem PlainPart.scanPlain_colon (h : PlainPart (u ++ [':']) t) (hm : m.column ≠ 0)
    (rest : List Char) :
    ∃ text, scanPlain false 1 .start m (u ++ [':'] ++ '\n' :: rest) =
      some (text, ⟨':' :: '\n' :: rest, m.forward u.length⟩, false) := by
  have hleft := h.left
  have hbroken := Folding.foldl_add_broken (f := .start) hleft.noBreak rfl
  have hcolumn : (1 : Int) ≤ (m.forward u.length).column := by
    simp only [Mark.forward]
    omega
  refine ⟨(u.foldl Folding.add .start).result, ?_⟩
  rw [List.append_assoc, scanPlain_append hleft.printable hleft.noBreak hleft.noIndicator
    (fun _ => rfl) rfl (fun h => by cases h) (Int.le_refl 1) fun h => absurd h hm]
  show scanPlain false 1 _ _ (':' :: '\n' :: rest) = _
  rw [scanPlain_endsKey (fun _ => hcolumn) rfl, hbroken]

/-! ## First and last characters -/

theorem isBlank_eq_false_of_isWhiteSpace (h : isWhiteSpace c = false) : isBlank c = false := by
  cases hb : isBlank c with
  | false => rfl
  | true =>
    simp only [isBlank, Bool.or_eq_true, decide_eq_true_eq] at hb
    rcases hb with rfl | rfl <;> cases h

/-- What is left of a text in the plain style does not end in a blank. -/
theorem exists_getLast?_textChars {cs : List Char} (h : styleOf cs = .plain)
    (hne : textChars cs ≠ []) :
    ∃ c, (textChars cs).getLast? = some c ∧ isBlank c = false := by
  rw [textChars_of_plain h] at hne ⊢
  have hc := List.getLast?_eq_some_getLast hne
  exact ⟨_, hc, isBlank_eq_false_of_isWhiteSpace (not_isWhiteSpace_of_getLast?_trimEnd hc)⟩

/-- The first character of a plain scalar does not start something else. -/
structure PlainHead (c : Char) (u : List Char) : Prop where
  printable : isPrintable c = true
  noBlank : isBlank c = false
  noBreak : isBreak c = false
  noIndicator : isLeadingIndicator c = false
  next : c = '-' ∨ c = '?' ∨ c = ':' → u ≠ [] → ∀ tail, startsBlank (u ++ tail) = false

theorem plainHead_of_styleOf {cs : List Char} (h : styleOf cs = .plain)
    (hu : textChars cs = c :: u) :
    PlainHead c u := by
  obtain ⟨t, heq, hpart⟩ := plainPart_textChars h
  rw [hu] at heq hpart
  obtain ⟨hallows, -⟩ := allowsPlain_of_styleOf h
  rw [heq, List.cons_append] at hallows
  simp only [allowsPlain, hasIndicator, startsIndicator, List.head?_cons, Option.any_some,
    Bool.and_eq_true, Bool.not_eq_true', Bool.or_eq_false_iff, isGap] at hallows
  obtain ⟨⟨⟨-, hspace, hbreak⟩, -⟩, -, ⟨hlead, hstart⟩, -⟩ := hallows
  have hp := List.all_eq_true.1 hpart.printable c (List.mem_cons_self ..)
  refine ⟨hp, (isBlank_eq_isSpace hp).trans hspace, hbreak, hlead, ?_⟩
  intro hc hne tail
  rw [startsBlank_append hne tail t]
  rcases hc with rfl | rfl | rfl <;> simpa using hstart

theorem PlainHead.startsEntry (h : PlainHead c u) (tail : List Char) :
    startsEntry (c :: u ++ tail) = true := by
  have hhash : c ≠ '#' := by
    rintro rfl
    cases h.noIndicator
  have hmark : c ≠ '\ufeff' := by
    rintro rfl
    exact absurd h.printable (by decide)
  simp [Yaml.startsEntry, h.noBlank, h.noBreak, hhash, hmark]

end

/-- Whatever is written for a text starts like an entry. -/
theorem startsEntry_textChars {cs : List Char} (hne : textChars cs ≠ []) (tail : List Char) :
    startsEntry (textChars cs ++ tail) = true := by
  cases hstyle : styleOf cs with
  | plain =>
    obtain ⟨c, u, hu⟩ := List.exists_cons_of_ne_nil hne
    rw [hu]
    exact (plainHead_of_styleOf hstyle hu).startsEntry tail
  | single =>
    rw [textChars_of_single hstyle]
    rfl
  | double =>
    rw [textChars_of_double hstyle]
    rfl
  | literal =>
    cases hw : cs.all isWhiteSpace with
    | true =>
      rw [textChars_of_literal_blank hstyle hw]
      rfl
    | false =>
      rw [textChars_of_literal hstyle hw]
      rfl

end Keepsake.Yaml
