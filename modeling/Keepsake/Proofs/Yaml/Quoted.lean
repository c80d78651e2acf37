import Keepsake.Proofs.Yaml.Folding
import Keepsake.Proofs.Yaml.Written
import Mathlib.Algebra.Group.Nat.Defs
/-!
# Quoted scalars are read back

A single-quoted scalar has no blanks around its breaks but those that indent its lines, and a
double-quoted one escapes its breaks. In a JSON string a separator stands for itself, and the
blanks behind it may belong to the text: they are lost (`joinLines`). A line that starts like the
marker of a document is no line of a scalar (`hasMarkerLine`).
-/

namespace Keepsake.Yaml

section

variable {f : Folding} {m : Mark} {c : Char} {cs rest : List Char}

/-! ## Single quotes -/

theorem startsMarker_of_isBreak (hb : isBreak c = true) (rest : List Char) :
    startsMarker (c :: rest) = false := by
  unfold startsMarker
  split
  · next h =>
    cases h
    cases hb
  · next h =>
    cases h
    cases hb
  · rfl

theorem scanSingle_add (hq : c ≠ '\'') (hr : c ≠ '\r')
    (hm : m.column = 0 → startsMarker (c :: rest) = false) :
    scanSingle f m (c :: rest) = scanSingle (f.add c) (m.after [c]) rest := by
  rw [scanSingle]
  · have hmarker : ¬(m.column = 0 ∧ startsMarker (c :: rest) = true) := by
      rintro ⟨hcol, hs⟩
      rw [hm hcol] at hs
      cases hs
    rw [if_neg hmarker, if_neg hq]
    unfold Folding.add Mark.after Mark.after
    split
    · rfl
    · split <;> rfl
  · exact fun _ h' => absurd h' hr
  · exact fun _ h' => absurd h' hq

/-- Behind a break the indentation is skipped. -/
theorem scanSingle_indentation (hf : f.broken = true) (rest : List Char) :
    scanSingle f m (indentation ++ rest) = scanSingle f (m.forward 2) rest := by
  have hadd : f.add ' ' = f := by
    show f.blank ' ' = f
    exact Folding.blank_of_broken hf ' '
  show scanSingle f m (' ' :: ' ' :: rest) = _
  rw [scanSingle_add (by decide) (by decide) fun _ => rfl, hadd,
    scanSingle_add (by decide) (by decide) fun _ => rfl, hadd]
  rfl

theorem scanSingle_lead (hm : f.broken = false → m.column ≠ 0) :
    ∃ n, (m.forward n).column ≠ 0 ∧
      m.after (if f.broken = true then indentation else []) = m.forward n ∧
      ∀ rest, scanSingle f m ((if f.broken = true then indentation else []) ++ rest) =
        scanSingle f (m.forward n) rest := by
  split
  · next hf => exact ⟨2, Nat.succ_ne_zero _, rfl, scanSingle_indentation hf⟩
  · next hf => exact ⟨0, hm (by simpa using hf), rfl, fun _ => rfl⟩

/-- A character of the text, a quote written twice. -/
theorem scanSingle_char (hr : c ≠ '\r') (hb : isBreak c = false) (hm : m.column ≠ 0)
    (rest : List Char) :
    ∃ n, m.after (if c = '\'' then ['\'', '\''] else [c]) = m.forward n ∧
      scanSingle f m ((if c = '\'' then ['\'', '\''] else [c]) ++ rest) =
        scanSingle (f.add c) (m.forward n) rest := by
  split
  · next hq =>
    subst hq
    exact ⟨2, rfl, rfl⟩
  · next hq =>
    refine ⟨1, Mark.after_cons hb m [], ?_⟩
    rw [List.singleton_append, scanSingle_add hq hr fun h => absurd h hm, Mark.after_cons hb]
    rfl

/-- What is written between single quotes is read back. -/
theorem scanSingle_singleBody (hp : cs.all isPrintable = true) (hn : '\n' ∉ cs)
    (hsb : hasPair isSpace isBreak cs = false) (hbs : hasPair isBreak isSpace cs = false)
    (hf : f.Suits cs) (hcol : f.broken = false → m.column ≠ 0) (hrest : rest.head? ≠ some '\'') :
    scanSingle f m (singleBody f.broken cs ++ '\'' :: rest) =
      some ((cs.reverse ++ f.settle.text).reverse,
        ⟨rest, m.after (singleBody f.broken cs ++ ['\''])⟩) := by
  induction cs generalizing f m with
  | nil =>
    cases hbroken : f.broken with
    | true =>
      show scanSingle f m (indentation ++ '\'' :: rest) = _
      rw [scanSingle_indentation hbroken, scanSingle_quote hrest]
      rfl
    | false => exact scanSingle_quote hrest
  | cons c cs ih =>
    rw [List.all_cons, Bool.and_eq_true] at hp
    rw [List.mem_cons, not_or] at hn
    have hacc := hf.accepts hp.1 (Ne.symm hn.1)
    have hr := ne_return_of_isPrintable hp.1
    have hline : ∀ {m : Mark}, (isBreak c = false → m.column ≠ 0) → _ := fun {m} hm =>
      ih (f := f.add c) (m := m) hp.2 hn.2 (Bool.or_eq_false_iff.1 (hasPair_cons ▸ hsb)).2
        (Bool.or_eq_false_iff.1 (hasPair_cons ▸ hbs)).2 (hf.add hp.1 (Ne.symm hn.1) hsb hbs)
        (hacc.add_broken ▸ hm)
    rw [hacc.settle_add_text hf.keepsBreaks, hacc.add_broken] at hline
    have hrev : cs.reverse ++ c :: f.settle.text = (c :: cs).reverse ++ f.settle.text := by simp
    unfold singleBody
    by_cases hb : isBreak c = true
    · -- a break is written as itself, wherever it stands
      have hq : c ≠ '\'' := by
        rintro rfl
        cases hb
      rw [if_pos hb, List.cons_append, scanSingle_add hq hr fun _ => startsMarker_of_isBreak hb _]
      rw [hb] at hline
      rw [hline (by simp), hrev]
      rfl
    · -- behind a break any other character is indented first
      have hb : isBreak c = false := by simpa using hb
      rw [hb] at hline
      rw [if_neg (by simp [hb])]
      simp only [List.append_assoc, Mark.after_append]
      obtain ⟨k, hk, hlead, hskip⟩ := scanSingle_lead hcol
      obtain ⟨n, hmark, hchar⟩ := scanSingle_char (f := f) hr hb hk
        (singleBody false cs ++ '\'' :: rest)
      have hcolumn : ((m.forward k).forward n).column ≠ 0 := by
        simp only [Mark.forward] at hk ⊢
        omega
      rw [hskip, hchar, hline fun _ => hcolumn, hrev, hlead, hmark, Mark.after_append]

/-! ## Double quotes -/

theorem hexValue?_upperHexDigit : ∀ n < 16, hexValue? (upperHexDigit n) = some n := by decide

theorem length_upperHex (width n : Nat) : (upperHex width n).length = width := by
  induction width generalizing n with
  | zero => rfl
  | succ width ih => rw [upperHex, List.length_append, ih, List.length_singleton]

/-- Digits are read as the number that they were written for, with more of them to come. -/
theorem scanDouble_upperHex (width : Nat) {digits : Nat} (hd : digits ≠ 0) (value n : Nat)
    (rest : List Char) :
    scanDouble f m (.hex (width + digits) value) (upperHex width n ++ rest) =
      scanDouble f (m.forward width) (.hex digits (16 ^ width * value + n % 16 ^ width)) rest := by
  induction width generalizing digits n rest with
  | zero => simp [upperHex, Nat.mod_one, Mark.forward]
  | succ width ih =>
    have hdigits : width + 1 + digits = width + (digits + 1) := by omega
    have hnumber : 16 * (16 ^ width * value + n / 16 % 16 ^ width) + n % 16 =
        16 ^ (width + 1) * value + n % 16 ^ (width + 1) := by
      rw [Nat.pow_succ', Nat.mod_mul, Nat.mul_add, Nat.mul_assoc]
      omega
    rw [upperHex, List.append_assoc, hdigits, ih (Nat.succ_ne_zero _), List.singleton_append,
      scanDouble, hexValue?_upperHexDigit _ (Nat.mod_lt n (by decide))]
    simp only []
    rw [if_neg (by omega), hnumber, Mark.forward_forward]
    rfl

/-- The last digit completes a character. -/
theorem scanDouble_hex (width : Nat) (hc : c.toNat < 16 ^ (width + 1)) (rest : List Char) :
    scanDouble f m (.hex (width + 1) 0) (upperHex (width + 1) c.toNat ++ rest) =
      scanDouble (f.push c) (m.forward (width + 1)) .none rest := by
  have hnumber : 16 * (c.toNat / 16 % 16 ^ width) + c.toNat % 16 = c.toNat := by
    have := Nat.mod_mul (x := c.toNat) (a := 16) (b := 16 ^ width)
    rw [← Nat.pow_succ', Nat.mod_eq_of_lt hc] at this
    omega
  have hchar : charOfNat? c.toNat = some c := by
    have hvalid : c.toNat.isValidChar := c.valid
    rw [charOfNat?, if_pos hvalid, Char.ofNat_toNat]
  rw [upperHex, List.append_assoc, scanDouble_upperHex width (by decide), List.singleton_append,
    scanDouble, hexValue?_upperHexDigit _ (Nat.mod_lt _ (by decide))]
  simp only []
  rw [Nat.mul_zero, Nat.zero_add, hnumber, if_pos (Nat.le_refl 1), hchar, Mark.forward_forward]

theorem scanDouble_add (hq : c ≠ '"') (hs : c ≠ '\\') (hr : c ≠ '\r')
    (hm : m.column = 0 → startsMarker (c :: rest) = false) :
    scanDouble f m .none (c :: rest) = scanDouble (f.add c) (m.after [c]) .none rest := by
  rw [scanDouble]
  · have hmarker : ¬(m.column = 0 ∧ startsMarker (c :: rest) = true) := by
      rintro ⟨hcol, hmarker⟩
      rw [hm hcol] at hmarker
      cases hmarker
    rw [if_neg hmarker, if_neg hq, if_neg hs]
    unfold Folding.add Mark.after Mark.after
    split
    · rfl
    · split <;> rfl
  · exact fun _ h' => absurd h' hr

theorem scanDouble_backslash (rest : List Char) :
    scanDouble f m .none ('\\' :: rest) = scanDouble f.settle (m.forward 1) .backslash rest := by
  rw [scanDouble]
  · simp [startsMarker]
  · simp

theorem scanDouble_letter {l : Char} (hl : escapeLetter? l = some c) (hb : isBreak l = false)
    (rest : List Char) :
    scanDouble f m .backslash (l :: rest) = scanDouble (f.push c) (m.forward 1) .none rest := by
  rw [scanDouble, if_neg (by simp [hb])]
  · simp only [hl]
  · rintro r rfl
    cases hb

/-- A character given by its number is read back. -/
theorem scanDouble_number (l : Char) (width : Nat) (hl : escapeLetter? l = none)
    (hw : escapeWidth? l = some (width + 1)) (hb : isBreak l = false)
    (hc : c.toNat < 16 ^ (width + 1)) (rest : List Char) :
    scanDouble f m .none ('\\' :: l :: upperHex (width + 1) c.toNat ++ rest) =
      scanDouble (f.settle.push c)
        (m.forward ('\\' :: l :: upperHex (width + 1) c.toNat).length) .none
        rest := by
  rw [List.cons_append, List.cons_append, scanDouble_backslash, scanDouble, if_neg (by simp [hb])]
  · simp only [hl, hw]
    rw [scanDouble_hex width hc, Mark.forward_forward, Mark.forward_forward, List.length_cons,
      List.length_cons, length_upperHex]
    congr 2
    omega
  · rintro r rfl
    cases hb

/-- A character between double quotes is read back. -/
theorem scanDouble_doubleChar (hf : f.broken = false) (hm : m.column ≠ 0) (c : Char) :
    ∃ g : Folding, g.broken = false ∧ g.settle.text = c :: f.settle.text ∧ ∀ rest,
      scanDouble f m .none (doubleChar c ++ rest) =
        scanDouble g (m.forward (doubleChar c).length) .none rest := by
  have htext : (f.settle.push c).settle.text = c :: f.settle.text := by simp
  have hlast := Folding.push_broken f.settle c
  unfold doubleChar
  split
  · next h =>
    obtain ⟨hp, hb, hq, hs⟩ := h
    have hb : isBreak c = false := by simpa using hb
    refine ⟨f.add c, Folding.add_broken_of_not_break hb fun _ => hf,
      Folding.settle_add_text_of_not_break hb fun _ => hf, fun rest => ?_⟩
    rw [List.singleton_append,
      scanDouble_add hq hs (ne_return_of_isPrintable hp) fun h => absurd h hm, Mark.after_cons hb]
    rfl
  · split
    · next l hl =>
      obtain ⟨hread, hb⟩ := escapeLetter?_of_letterOf? hl
      refine ⟨f.settle.push c, hlast, htext, ?_⟩
      intro rest
      rw [List.cons_append, scanDouble_backslash, List.singleton_append, scanDouble_letter hread hb,
        Mark.forward_forward]
      rfl
    · refine ⟨f.settle.push c, hlast, htext, ?_⟩
      intro rest
      simp only []
      split
      · next h => exact scanDouble_number 'x' 1 rfl rfl rfl (by omega) rest
      · split
        · next h => exact scanDouble_number 'u' 3 rfl rfl rfl (by omega) rest
        · exact scanDouble_number 'U' 7 rfl rfl rfl c.val.toNat_lt rest

/-- What is written between double quotes is read back. -/
theorem scanDouble_flatMap_doubleChar (hf : f.broken = false) (hm : m.column ≠ 0)
    (cs rest : List Char) :
    scanDouble f m .none (cs.flatMap doubleChar ++ '"' :: rest) =
      some ((cs.reverse ++ f.settle.text).reverse,
        ⟨rest, m.forward ((cs.flatMap doubleChar).length + 1)⟩) := by
  induction cs generalizing f m with
  | nil => exact scanDouble_quote rest
  | cons c cs ih =>
    obtain ⟨g, hg, htext, hread⟩ := scanDouble_doubleChar hf hm c
    have hcolumn : (m.forward (doubleChar c).length).column ≠ 0 := by
      simp only [Mark.forward] at hm ⊢
      omega
    rw [List.flatMap_cons, List.append_assoc, hread, ih hg hcolumn, htext, Mark.forward_forward]
    simp [Nat.add_assoc]

/-! ## JSON strings -/

/-- The text of a JSON string: the blanks behind a separator are lost. -/
def joinLines (broken : Bool) : List Char → List Char
  | [] => []
  | c :: cs => if broken && isSpace c then joinLines true cs else c :: joinLines (isSeparator c) cs

/--
Whether a text starts like a line with the marker of a document, as it stands in a JSON string.
-/
def opensMarker : List Char → Bool
  | '-' :: '-' :: '-' :: c :: _ => isSpace c || isSeparator c
  | '.' :: '.' :: '.' :: c :: _ => isSpace c || isSeparator c
  | _ => false

/-- Whether the marker of a document stands behind a separator. -/
def hasMarkerLine : List Char → Bool
  | [] => false
  | c :: cs => isSeparator c && opensMarker cs || hasMarkerLine cs

theorem length_joinLines_le (b : Bool) (cs : List Char) : (joinLines b cs).length ≤ cs.length := by
  induction cs generalizing b with
  | nil => exact Nat.le_refl _
  | cons c cs ih =>
    unfold joinLines
    split
    · exact Nat.le_succ_of_le (ih true)
    · exact Nat.succ_le_succ (ih _)

/-- A text stays as it is exactly if it has no blank behind a separator. -/
theorem joinLines_eq_self_iff (b : Bool) (cs : List Char) :
    joinLines b cs = cs ↔ (b && cs.head?.any isSpace) = false ∧
      hasPair isSeparator isSpace cs = false := by
  induction cs generalizing b with
  | nil => simp [joinLines, hasPair]
  | cons c cs ih =>
    unfold joinLines
    split
    · next h =>
      refine ⟨fun heq => ?_, fun hnone => ?_⟩
      · have := length_joinLines_le true cs
        rw [heq, List.length_cons] at this
        omega
      · simp [h] at hnone
    · next h =>
      have h : (b && isSpace c) = false := by simpa using h
      rw [List.cons.injEq, ih, hasPair_cons, Bool.or_eq_false_iff]
      simp [h]

/-- A character that may be written as itself is escaped by a letter or stands for itself. -/
theorem escapeChar_of_isPrintable (hp : isPrintable c = true) :
    (∃ l, Json.escapeChar c = ['\\', l] ∧ escapeLetter? l = some c ∧ isBreak l = false ∧
      isSeparator c = false ∧ isSpace c = false) ∨
    (Json.escapeChar c = [c] ∧ c ≠ '"' ∧ c ≠ '\\' ∧ c ≠ '\n') := by
  have hlow : c = '\n' ∨ 0x20 ≤ c.toNat := by
    simp only [isPrintable, Bool.or_eq_true, Bool.and_eq_true, decide_eq_true_eq] at hp
    by_cases hn : c.toNat = 0x0A
    · exact Or.inl (Char.toNat_inj.1 hn)
    · exact Or.inr (by omega)
  unfold Json.escapeChar
  split
  · next h => subst h; exact Or.inl ⟨_, rfl, rfl, rfl, rfl, rfl⟩
  · next hq =>
    split
    · next h => subst h; exact Or.inl ⟨_, rfl, rfl, rfl, rfl, rfl⟩
    · next hs =>
      split
      · next h => subst h; exact Or.inl ⟨_, rfl, rfl, rfl, rfl, rfl⟩
      · next hn =>
        have hlow := hlow.resolve_left hn
        rw [if_neg (ne_return_of_isPrintable hp), if_neg (ne_tab_of_isPrintable hp),
          if_neg (by omega), if_neg (by omega), if_neg (by omega)]
        exact Or.inr ⟨rfl, hq, hs, hn⟩

theorem startsBlank_escapeChar (hp : isPrintable c = true) (rest : List Char) :
    startsBlank (Json.escapeChar c ++ rest) = (isSpace c || isSeparator c) := by
  obtain ⟨l, h, -, -, hsep, hspace⟩ | ⟨h, -, -, hn⟩ := escapeChar_of_isPrintable hp
  · rw [h, hsep, hspace]
    rfl
  · rw [h, List.singleton_append, startsBlank, isBlank_eq_isSpace hp, isSeparator_eq_isBreak hp hn]

/-- What an escaped text starts with, but for quote and backslash, the text starts with. -/
theorem exists_cons_of_escape_eq_cons {d : Char} {tail : List Char} (hp : cs.all isPrintable = true)
    (hq : d ≠ '"') (hs : d ≠ '\\') (h : Json.escape cs ++ '"' :: rest = d :: tail) :
    ∃ cs', cs = d :: cs' ∧ cs'.all isPrintable = true ∧ Json.escape cs' ++ '"' :: rest = tail := by
  cases cs with
  | nil => exact absurd (List.cons.inj h).1.symm hq
  | cons c cs =>
    rw [List.all_cons, Bool.and_eq_true] at hp
    rw [Json.escape, List.flatMap_cons, List.append_assoc] at h
    obtain ⟨l, hc, -⟩ | ⟨hc, -⟩ := escapeChar_of_isPrintable hp.1
    · rw [hc] at h
      exact absurd (List.cons.inj h).1.symm hs
    · rw [hc] at h
      obtain ⟨rfl, htail⟩ := List.cons.inj h
      exact ⟨cs, rfl, hp.2, htail⟩

theorem exists_of_escape_eq_marker {d : Char} {tail : List Char} (hp : cs.all isPrintable = true)
    (hq : d ≠ '"') (hs : d ≠ '\\') (h : Json.escape cs ++ '"' :: rest = d :: d :: d :: tail)
    (hblank : startsBlank tail = true) :
    ∃ c cs', cs = d :: d :: d :: c :: cs' ∧ (isSpace c || isSeparator c) = true := by
  obtain ⟨cs₁, rfl, hp₁, h₁⟩ := exists_cons_of_escape_eq_cons hp hq hs h
  obtain ⟨cs₂, rfl, hp₂, h₂⟩ := exists_cons_of_escape_eq_cons hp₁ hq hs h₁
  obtain ⟨cs₃, rfl, hp₃, rfl⟩ := exists_cons_of_escape_eq_cons hp₂ hq hs h₂
  cases cs₃ with
  | nil => cases hblank
  | cons c cs₄ =>
    rw [List.all_cons, Bool.and_eq_true] at hp₃
    rw [Json.escape, List.flatMap_cons, List.append_assoc, startsBlank_escapeChar hp₃.1] at hblank
    exact ⟨c, cs₄, rfl, hblank⟩

theorem startsMarker_escape (hp : cs.all isPrintable = true) (rest : List Char) :
    startsMarker (Json.escape cs ++ '"' :: rest) = opensMarker cs := by
  rw [Bool.eq_iff_iff]
  constructor
  · intro h
    unfold startsMarker at h
    split at h
    · next heq =>
      obtain ⟨c, cs', rfl, hc⟩ := exists_of_escape_eq_marker hp (by decide) (by decide) heq h
      exact hc
    · next heq =>
      obtain ⟨c, cs', rfl, hc⟩ := exists_of_escape_eq_marker hp (by decide) (by decide) heq h
      exact hc
    · cases h
  · intro h
    have hlast : ∀ {c : Char} {cs' : List Char}, isPrintable c = true →
        startsBlank (Json.escape (c :: cs') ++ '"' :: rest) = (isSpace c || isSeparator c) := by
      intro c cs' hc
      rw [Json.escape, List.flatMap_cons, List.append_assoc, startsBlank_escapeChar hc]
    unfold opensMarker at h
    split at h
    · next c cs' =>
      have hc : isPrintable c = true := List.all_eq_true.1 hp c (by simp)
      exact (hlast hc).trans h
    · next c cs' =>
      have hc : isPrintable c = true := List.all_eq_true.1 hp c (by simp)
      exact (hlast hc).trans h
    · cases h

theorem scanDouble_of_startsMarker (hm : m.column = 0) (h : startsMarker cs = true) :
    scanDouble f m .none cs = none := by
  cases cs with
  | nil => rfl
  | cons c cs =>
    rw [scanDouble]
    · exact if_pos ⟨hm, h⟩
    · rintro r rfl
      cases h

/--
What is written in a JSON string is read with its lines joined, unless one of them is a marker.
-/
theorem scanDouble_escape (hp : cs.all isPrintable = true)
    (hsb : hasPair isSpace isBreak cs = false)
    (hf : f.KeepsBreaks) (hblanks : f.broken = false → f.blanks ≠ [] → cs.head?.any isBreak = false)
    (hm : f.broken = false → m.column ≠ 0) (rest : List Char) :
    scanDouble f m .none (Json.escape cs ++ '"' :: rest) =
      if m.column = 0 ∧ opensMarker cs = true ∨ hasMarkerLine cs = true then none
      else some (((joinLines f.broken cs).reverse ++ f.settle.text).reverse,
        ⟨rest, m.after (Json.escape cs ++ ['"'])⟩) := by
  induction cs generalizing f m with
  | nil =>
    rw [if_neg (by simp [opensMarker, hasMarkerLine])]
    exact scanDouble_quote rest
  | cons c cs ih =>
    by_cases hmarker : m.column = 0 ∧ opensMarker (c :: cs) = true
    · rw [if_pos (Or.inl hmarker)]
      exact scanDouble_of_startsMarker hmarker.1 ((startsMarker_escape hp rest).trans hmarker.2)
    · have hnone : m.column = 0 → startsMarker (Json.escape (c :: cs) ++ '"' :: rest) = false := by
        intro hcol
        rw [startsMarker_escape hp]
        simpa [hcol] using hmarker
      rw [List.all_cons, Bool.and_eq_true] at hp
      rw [hasPair_cons, Bool.or_eq_false_iff] at hsb
      have hcons : Json.escape (c :: cs) = Json.escapeChar c ++ Json.escape cs := rfl
      rw [hcons, List.append_assoc] at hnone ⊢
      obtain ⟨l, hc, hl, hb, hsep, hspace⟩ | ⟨hc, hq, hs, hn⟩ := escapeChar_of_isPrintable hp.1
      · -- an escape is added as it is, and behind it stands no new line
        have hnext : (m.forward 2).column ≠ 0 := Nat.succ_ne_zero _
        rw [hc, List.cons_append, List.singleton_append, scanDouble_backslash,
          scanDouble_letter hl hb, Mark.forward_forward,
          ih hp.2 hsb.2 (hf.settle.push c) (fun _ h => absurd (by simp) h)
            fun _ => hnext]
        have hafter : m.after (['\\', l] ++ Json.escape cs ++ ['"'])
            = (m.forward 2).after (Json.escape cs ++ ['"']) := by
          show m.after ('\\' :: l :: (Json.escape cs ++ ['"'])) = _
          rw [Mark.after_cons (by decide), Mark.after_cons hb, Mark.forward_forward]
        rw [hafter]
        simp [hnext, hmarker, hasMarkerLine, joinLines, hsep, hspace]
      · rw [hc, List.singleton_append] at hnone ⊢
        rw [scanDouble_add hq hs (ne_return_of_isPrintable hp.1) hnone]
        have hsep := isSeparator_eq_isBreak hp.1 hn
        have hrest : hasMarkerLine (c :: cs) =
            (isBreak c && opensMarker cs || hasMarkerLine cs) := by
          rw [hasMarkerLine, hsep]
        have hafter : m.after ([c] ++ Json.escape cs ++ ['"'])
            = (m.after [c]).after (Json.escape cs ++ ['"']) := by
          rw [List.append_assoc, Mark.after_append]
        by_cases hlost : f.broken = true ∧ isSpace c = true
        · -- a blank at the start of a line is lost, on both sides
          obtain rfl : c = ' ' := by simpa [isSpace] using hlost.2
          have hadd : f.add ' ' = f := Folding.blank_of_broken hlost.1 ' '
          have hnext : (m.after [' ']).column ≠ 0 := Nat.succ_ne_zero _
          rw [hadd, ih hp.2 hsb.2 hf (fun h => by simp [hlost.1] at h) fun _ => hnext, hafter]
          simp [hnext, hmarker, hrest, show isBreak ' ' = false from rfl, joinLines, hlost]
        · -- any other character is added, and a new line begins exactly behind a break
          have hacc : f.Accepts c := by
            refine ⟨hp.1, hn, fun hspace => ?_, fun hb hbroken => ?_⟩
            · simpa [hspace] using hlost
            · refine Decidable.byContradiction fun h => ?_
              simpa [hb] using hblanks hbroken h
          have hjoin : joinLines f.broken (c :: cs) = c :: joinLines (isBreak c) cs := by
            rw [joinLines, if_neg (by simpa using hlost), hsep]
          have hnext := Mark.after_singleton_column_eq_zero_iff m c
          rw [ih hp.2 hsb.2 (hacc.keepsBreaks_add hf) ?_ ?_, hacc.settle_add_text hf,
            hacc.add_broken, hafter]
          · simp [hnext, hmarker, hrest, hjoin]
          · intro hb hne
            rw [hacc.add_broken] at hb
            exact (Bool.and_eq_false_iff.1 hsb.1).resolve_left fun hs => hne (hacc.add_blanks hs hb)
          · rw [hacc.add_broken]
            exact fun hb h => absurd (hnext.1 h) (by simp [hb])

end

/-! ## Texts in quotes -/

/-- Whether a text is written in quotes. -/
def IsQuoted (cs : List Char) : Prop :=
  styleOf cs = .single ∨ styleOf cs = .double ∨ styleOf cs = .literal ∧ cs.all isWhiteSpace = false

/-- The text that is read of a scalar in quotes; none if one of its lines is a marker. -/
def quotedRead? (cs : List Char) : Option (List Char) :=
  if styleOf cs = .literal then
    if hasMarkerLine cs then none else some (joinLines false cs)
  else some cs

section

variable {cs rest : List Char}

theorem scanSingle_textChars (h : styleOf cs = .single) (m : Mark)
    (hrest : rest.head? ≠ some '\'') :
    ∃ body, textChars cs = '\'' :: body ∧
      scanSingle .start (m.forward 1) (body ++ rest) =
        some (cs, ⟨rest, m.after ('\'' :: body)⟩) := by
  have hallows := allowsSingle_of_styleOf h
  simp only [allowsSingle, Bool.and_eq_true, Bool.not_eq_true'] at hallows
  obtain ⟨⟨hp, hsb⟩, hbs⟩ := hallows
  have hsuits : Folding.start.Suits cs :=
    ⟨Folding.keepsBreaks_start, (fun h => by cases h), fun _ h => absurd rfl h⟩
  refine ⟨_, textChars_of_single h, ?_⟩
  have hscan := scanSingle_singleBody (m := m.forward 1) hp
    (newline_not_mem_of_styleOf (Or.inr h)) hsb hbs
    hsuits (fun _ => Nat.succ_ne_zero _) hrest
  rw [List.append_assoc, List.singleton_append, Mark.after_cons (by decide)]
  exact hscan.trans (by simp [Folding.start, Folding.settle])

theorem scanDouble_textChars (h : styleOf cs = .double) (m : Mark) (rest : List Char) :
    ∃ body, textChars cs = '"' :: body ∧
      scanDouble .start (m.forward 1) .none (body ++ rest) =
        some (cs, ⟨rest, m.after ('"' :: body)⟩) := by
  refine ⟨_, textChars_of_double h, ?_⟩
  have hline : ('"' :: (cs.flatMap doubleChar ++ ['"'])).any isBreak = false := by
    have hquote : isBreak '"' = false := by decide
    simp [hquote, List.any_flatMap, any_isBreak_doubleChar]
  rw [List.append_assoc, List.singleton_append,
    scanDouble_flatMap_doubleChar rfl (Nat.succ_ne_zero _), Mark.after_eq_forward hline,
    Mark.forward_forward]
  simp [Folding.start, Folding.settle, Nat.add_comm]

theorem scanDouble_textChars_of_literal (h : styleOf cs = .literal)
    (hw : cs.all isWhiteSpace = false) (m : Mark) (rest : List Char) :
    ∃ body, textChars cs = '"' :: body ∧
      scanDouble .start (m.forward 1) .none (body ++ rest) =
        (quotedRead? cs).map fun text => (text, ⟨rest, m.after ('"' :: body)⟩) := by
  have hallows := (allowsLiteral_of_styleOf h).2
  simp only [allowsLiteral, Bool.and_eq_true, Bool.not_eq_true'] at hallows
  obtain ⟨⟨hp, hsb⟩, -⟩ := hallows
  refine ⟨_, textChars_of_literal h hw, ?_⟩
  have hcolumn : (m.forward 1).column ≠ 0 := Nat.succ_ne_zero _
  rw [List.append_assoc, List.singleton_append,
    scanDouble_escape hp hsb Folding.keepsBreaks_start (fun _ h => absurd rfl h) fun _ => hcolumn,
    quotedRead?, if_pos h, Mark.after_cons (by decide)]
  simp only [hcolumn, false_and, false_or]
  split <;> simp [Folding.start, Folding.settle]

end

end Keepsake.Yaml
