import Keepsake.Proofs.Yaml.Number
import Keepsake.Proofs.Yaml.Scalar
/-!
# Words and rows as tokens

Numbers and booleans are written as words: texts whose characters belong to a plain scalar wherever
they stand (`IsWord`). A word behind a key is one token, and so is each word between brackets, where
only a comma or the closing bracket ends it. Inside the brackets a word may still turn out to be a
key, but never has to, so whatever the scanner remembers of it is forgotten (`run_rowRest`).
-/

namespace Keepsake.Yaml

/-! ## Words -/

/-- Characters that belong to a plain scalar wherever they stand behind its first one. -/
def isWordPart (c : Char) : Bool := c.isAlphanum || ['+', '-', '.', '_'].contains c

/-- A text that is one plain scalar wherever it stands. -/
structure IsWord (u : List Char) : Prop where
  parts : ∀ c ∈ u, isWordPart c = true
  ne_nil : u ≠ []
  /-- a dash alone is the mark of an item -/
  ne_dash : u ≠ ['-']

section

variable {c d : Char} {i : Int} {m : Mark} {t u cs rest : List Char} {inFlow : Bool}

theorem ne_of_isWordPart (h : isWordPart c = true) (hd : isWordPart d = false) : c ≠ d := by
  rintro rfl
  rw [h] at hd
  cases hd

theorem isBreak_of_isWordPart (h : isWordPart c = true) : isBreak c = false := by
  have hbreaks :
      ['\n', '\r', '\u0085', '\u2028', '\u2029'].all (fun d => !isWordPart d) = true := by decide
  have hne : ∀ d ∈ ['\n', '\r', '\u0085', '\u2028', '\u2029'], c ≠ d := fun d hd =>
    ne_of_isWordPart h (by simpa using List.all_eq_true.1 hbreaks d hd)
  simp only [List.forall_mem_cons] at hne
  simp [isBreak, hne]

theorem isBlank_of_isWordPart (h : isWordPart c = true) : isBlank c = false := by
  have hne : c ≠ ' ' ∧ c ≠ '\t' :=
    ⟨ne_of_isWordPart h (by decide), ne_of_isWordPart h (by decide)⟩
  simp [isBlank, hne]

theorem toNat_of_isBetween (low high : UInt32)
    (h : (decide (low ≤ c.val) && decide (c.val ≤ high)) = true) :
    low.toNat ≤ c.toNat ∧ c.toNat ≤ high.toNat := by
  obtain ⟨hlow, hhigh⟩ := Bool.and_eq_true_iff.1 h
  exact ⟨of_decide_eq_true hlow, of_decide_eq_true hhigh⟩

theorem toNat_of_isWordPart (h : isWordPart c = true) : 0x21 ≤ c.toNat ∧ c.toNat ≤ 0x7E := by
  have hkinds :
      (((c.isUpper || c.isLower) || c.isDigit) || ['+', '-', '.', '_'].contains c) = true := h
  simp only [Bool.or_eq_true, List.contains_eq_mem, decide_eq_true_eq] at hkinds
  rcases hkinds with ((h | h) | h) | h
  · have hbounds : (0x41 : UInt32) ≤ c.val ∧ c.val ≤ 0x5A := of_decide_eq_true h
    have hupper : 0x41 ≤ c.toNat ∧ c.toNat ≤ 0x5A := hbounds
    omega
  · have hlower : 0x61 ≤ c.toNat ∧ c.toNat ≤ 0x7A := toNat_of_isBetween 0x61 0x7A h
    omega
  · have hdigit : 0x30 ≤ c.toNat ∧ c.toNat ≤ 0x39 := toNat_of_isBetween 0x30 0x39 h
    omega
  · have hsigns :
        ['+', '-', '.', '_'].all (fun d => 0x21 ≤ d.toNat && d.toNat ≤ 0x7E) = true := by decide
    simpa using List.all_eq_true.1 hsigns c h

theorem isPrintable_of_isWordPart (h : isWordPart c = true) : isPrintable c = true := by
  obtain ⟨hlow, hhigh⟩ := toNat_of_isWordPart h
  simp only [isPrintable, Bool.or_eq_true, Bool.and_eq_true, decide_eq_true_eq]
  omega

theorem isLeadingIndicator_of_isWordPart (h : isWordPart c = true) :
    isLeadingIndicator c = false := by
  cases hc : isLeadingIndicator c with
  | false => rfl
  | true =>
    have hparts : ['#', ',', '[', ']', '\x7b', '\x7d', '&', '*', '!', '|', '>', '\'', '"', '%',
        '@', '\x60'].all (fun d => !isWordPart d) = true := by decide
    have hnot := List.all_eq_true.1 hparts c (by simpa [isLeadingIndicator] using hc)
    rw [h] at hnot
    cases hnot

theorem startsEntry_of_isWordPart (h : isWordPart c = true) (cs : List Char) :
    startsEntry (c :: cs) = true := by
  have hne : c ≠ '#' ∧ c ≠ '\ufeff' :=
    ⟨ne_of_isWordPart h (by decide), ne_of_isWordPart h (by decide)⟩
  simp [startsEntry, isBlank_of_isWordPart h, isBreak_of_isWordPart h, hne]

theorem IsWord.startsEntry_append (hu : IsWord u) (tail : List Char) :
    startsEntry (u ++ tail) = true := by
  obtain ⟨c, v, rfl⟩ := List.exists_cons_of_ne_nil hu.ne_nil
  exact startsEntry_of_isWordPart (hu.parts c (List.mem_cons_self ..)) _

/-! ### Values that are words -/

theorem isWord_word (b : Bool) : IsWord (Value.word b).toList := by
  cases b with
  | true => exact ⟨List.all_eq_true.1 (by decide), by decide, by decide⟩
  | false => exact ⟨List.all_eq_true.1 (by decide), by decide, by decide⟩

theorem isWord_of_isNumberText (h : Json.IsNumberText u) (hdash : u ≠ ['-']) : IsWord u where
  parts := by
    intro c hc
    have hchar := h.chars c hc
    simp only [Json.isNumberChar, Bool.or_eq_true, decide_eq_true_eq] at hchar
    rcases hchar with ((((hdigit | rfl) | rfl) | rfl) | rfl) | rfl
    · simp [isWordPart, Char.isAlphanum, hdigit]
    all_goals decide
  ne_nil := by
    obtain ⟨c, rest, rfl, -⟩ := h.lead
    exact List.cons_ne_nil c rest
  ne_dash := hdash

theorem isWord_chars (w : Whole) : IsWord w.chars := by
  refine isWord_of_isNumberText (Json.isNumberText_chars w) ?_
  unfold Whole.chars
  split
  · simp [Decimal.digitChars_ne_nil]
  · intro h
    have hdash : '-' ∈ Decimal.digitChars w.1.natAbs := h ▸ List.mem_singleton_self '-'
    exact absurd (Decimal.isDigit_of_mem_digitChars hdash) (by decide)

theorem isWord_numberChars (x : Binary64) : IsWord (numberLayout.chars x) := by
  cases hx : x.isFinite with
  | true =>
    refine isWord_of_isNumberText (isNumberText_chars_of_isFinite hx) ?_
    obtain ⟨c, rest, heq, hc⟩ := Literal.exists_literalChars_eq_cons
      (Json.Literal.regular_ofDecimal (x.shortest .even))
    rw [chars_of_isFinite hx]
    split
    · simp [Json.literalOf, heq]
    · rw [Json.literalOf, heq]
      rintro ⟨⟩
      cases hc
  | false =>
    obtain ⟨-, h⟩ | ⟨-, h⟩ | ⟨-, h⟩ := chars_of_not_isFinite hx <;>
      exact h ▸ ⟨List.all_eq_true.1 (by decide), by decide, by decide⟩

/-! ## Reading a word -/

/-- The folding behind the characters `t` of a word, the last of them first. -/
def Folding.ofWord (t : List Char) : Folding := ⟨t, [], false, none, []⟩

/-- Every part of a word is taken as it is. -/
theorem scanPlain_parts (hu : ∀ c ∈ u, isWordPart c = true) (hm : m.column ≠ 0) :
    scanPlain inFlow i (.ofWord t) m (u ++ rest) =
      scanPlain inFlow i (.ofWord (u.reverse ++ t)) (m.forward u.length) rest := by
  induction u generalizing t m with
  | nil => rfl
  | cons c u ih =>
    rw [List.forall_mem_cons] at hu
    have hne : c ≠ '\r' ∧ c ≠ ':' :=
      ⟨ne_of_isWordPart hu.1 (by decide), ne_of_isWordPart hu.1 (by decide)⟩
    have hcolon :
        endsKey (c :: (u ++ rest)) = false ∧ misplacedColon (c :: (u ++ rest)) = false := by
      constructor
      · unfold endsKey
        split
        · next h => exact absurd (List.cons.inj h).1 hne.2
        · rfl
      · unfold misplacedColon
        split
        · next h => exact absurd (List.cons.inj h).1 hne.2
        · rfl
    have hflow : isFlowPunctuation c = false := by
      have hlead := isLeadingIndicator_of_isWordPart hu.1
      simp only [isLeadingIndicator, List.contains_eq_mem, decide_eq_false_iff_not, List.mem_cons,
        not_or] at hlead
      simp [isFlowPunctuation, hlead]
    rw [List.cons_append, scanPlain]
    · rw [if_neg (by simp [isBreak_of_isWordPart hu.1]),
        if_neg (by simp [isBlank_of_isWordPart hu.1]),
        if_neg (by simp [Folding.isPending, Folding.ofWord, hm]), if_neg (by simp [hcolon.2]),
        if_neg (by simp [hcolon.1, hflow])]
      show scanPlain inFlow i (.ofWord (c :: t)) (m.forward 1) (u ++ rest) = _
      rw [ih hu.2 (Nat.succ_ne_zero _), Mark.forward_forward, List.length_cons, Nat.add_comm 1,
        List.reverse_cons, List.append_assoc]
      rfl
    · exact fun _ h => absurd h hne.1

/-- A word behind a key ends with its line. -/
theorem IsWord.scanPlain_line (hu : IsWord u) (hm : m.column ≠ 0) (hr : startsEntry rest = true) :
    scanPlain false 1 .start m (u ++ '\n' :: rest) =
      some (u, ⟨rest, (m.forward u.length).newLine 1⟩, true) := by
  refine (scanPlain_parts (t := []) hu.parts hm).trans ?_
  rw [scanPlain_newLine hr]
  simp [Folding.result, Folding.ofWord]

/-- A word between brackets ends before a comma or the closing bracket. -/
theorem IsWord.scanPlain_item (hu : IsWord u) (hm : m.column ≠ 0) (hd : d = ',' ∨ d = ']') :
    scanPlain true i .start m (u ++ d :: rest) =
      some (u, ⟨d :: rest, m.forward u.length⟩, false) := by
  have hcolumn : (m.forward u.length).column ≠ 0 := by
    simp only [Mark.forward]
    omega
  refine (scanPlain_parts (t := []) hu.parts hm).trans ?_
  have hchar : d ≠ '\r' ∧ isBreak d = false ∧ isBlank d = false ∧ isFlowPunctuation d = true ∧
      misplacedColon (d :: rest) = false := by
    rcases hd with rfl | rfl <;> exact ⟨by decide, by decide, by decide, by decide, rfl⟩
  obtain ⟨hreturn, hbreak, hblank, hflow, hcolon⟩ := hchar
  rw [scanPlain]
  · rw [if_neg (by simp [hbreak]), if_neg (by simp [hblank]),
      if_neg (by simp [Folding.isPending, Folding.ofWord, hcolumn]), if_neg (by simp [hcolon]),
      if_pos (Or.inr ⟨rfl, hflow⟩)]
    simp [Folding.result, Folding.ofWord]
  · exact fun _ h => absurd h hreturn

end

/-! ## Rows -/

/-- What is written behind the first item of a row, but for the closing bracket. -/
def moreChars (us : List (List Char)) : List Char := us.flatMap fun u => ',' :: ' ' :: u

/-- The tokens behind the first item of a row, but for the closing bracket. -/
def moreTokens (us : List (List Char)) : List Token := us.flatMap fun u => [.comma, .scalar true u]

/-- The tokens of a row. -/
def rowTokens : List (List Char) → List Token
  | [] => [.openBracket, .closeBracket]
  | u :: us => .openBracket :: .scalar true u :: (moreTokens us ++ [.closeBracket])

theorem commaSpaced_cons (u : List Char) (us : List (List Char)) :
    commaSpaced (u :: us) = u ++ moreChars us := by
  induction us generalizing u with
  | nil => simp [commaSpaced, moreChars]
  | cons v us ih =>
    rw [commaSpaced, ih]
    · simp [moreChars]
    · exact List.cons_ne_nil v us

/-- Behind an item comes a comma or the closing bracket. -/
theorem exists_moreChars (us : List (List Char)) (rest : List Char) :
    ∃ d tail, moreChars us ++ ']' :: rest = d :: tail ∧ (d = ',' ∨ d = ']') := by
  cases us with
  | nil => exact ⟨']', rest, rfl, Or.inr rfl⟩
  | cons u us => exact ⟨',', _, rfl, Or.inl rfl⟩

/-- A row has no more tokens than characters. -/
theorem length_rowTokens_le {us : List (List Char)} (hus : ∀ u ∈ us, IsWord u) :
    (rowTokens us).length ≤ (rowChars us).length := by
  have hmore : ∀ us, (moreTokens us).length ≤ (moreChars us).length := by
    intro us
    induction us with
    | nil => exact Nat.le_refl _
    | cons u us ih =>
      simp only [moreTokens, moreChars, List.flatMap_cons, List.length_append, List.length_cons,
        List.length_nil] at ih ⊢
      omega
  cases us with
  | nil => exact Nat.le_refl _
  | cons u us =>
    have hpos : 0 < u.length := List.length_pos_iff.2 (hus u (List.mem_cons_self ..)).ne_nil
    have hmore := hmore us
    simp only [rowTokens, rowChars, commaSpaced_cons, List.length_append, List.length_cons,
      List.length_nil]
    omega

namespace Scanner

section

variable {m : Mark} {ts : List Token} {u cs rest : List Char} {keyAllowed : Bool}
  {k : Option Candidate}

/-- A word is taken as a plain scalar. -/
theorem take_word {s : Scanner} {c d : Char} (hu : IsWord (c :: u)) (hm : s.column ≠ 0) :
    s.take c (u ++ d :: rest) = s.takePlain := by
  have hc := hu.parts c (List.mem_cons_self ..)
  have hne : c ≠ '?' ∧ c ≠ ':' :=
    ⟨ne_of_isWordPart hc (by decide), ne_of_isWordPart hc (by decide)⟩
  refine take_plain ?_ (isLeadingIndicator_of_isWordPart hc) (isBlank_of_isWordPart hc)
    (isBreak_of_isWordPart hc) ?_ fun h => absurd h hm
  · intro h
    exact absurd h (by simp [hne])
  · rintro (rfl | h | h)
    · have hnil : u ≠ [] := fun h => hu.ne_dash (by rw [h])
      obtain ⟨e, v, rfl⟩ := List.exists_cons_of_ne_nil hnil
      have he := hu.parts e (by simp)
      simp [startsBlank, isBlank_of_isWordPart he, isBreak_of_isWordPart he]
    · exact absurd h hne.1
    · exact absurd h hne.2

/-- A word behind a key is a value with its line. -/
theorem next_wordValue (hu : IsWord u) (hm : m.column ≠ 0) (hr : startsEntry rest = true) :
    (atValue m ts (u ++ '\n' :: rest)).next =
      some (atEntry true ((m.forward u.length).newLine 1) (.scalar true u :: ts) rest) := by
  obtain ⟨c, v, rfl⟩ := List.exists_cons_of_ne_nil hu.ne_nil
  have htake : (atValue m ts (c :: v ++ '\n' :: rest)).next =
      (atValue m ts (c :: v ++ '\n' :: rest)).takePlain :=
    take_word (s := atValue m ts (c :: v ++ '\n' :: rest)) hu hm
  refine htake.trans ((takePlain_outside fun h => absurd h Bool.false_ne_true).trans ?_)
  show (scanPlain false 1 .start m (c :: v ++ '\n' :: rest)).map _ = _
  rw [hu.scanPlain_line hm hr]
  rfl

/-! ## Between brackets -/

/-- The scanner between the brackets of a row that stands behind a key. -/
def inRow (keyAllowed : Bool) (candidate : Option Candidate) (m : Mark) (ts : List Token)
    (cs : List Char) : Scanner :=
  { outside true keyAllowed candidate m ts cs with outerCandidates := [none] }

/-- A candidate that need not become a key. -/
def IsLoose (k : Option Candidate) : Prop := ∀ c ∈ k, c.required = false

theorem isLoose_none : IsLoose none := nofun

theorem release_of_isLoose (h : IsLoose k) : release k = some none := by
  cases k with
  | none => rfl
  | some c => simp [release, h c rfl]

/-- To expire leaves a loose candidate, or none. -/
theorem exists_expire_of_isLoose (h : IsLoose k) (m : Mark) :
    ∃ k', IsLoose k' ∧ expire m k = some k' := by
  cases k with
  | none => exact ⟨none, isLoose_none, rfl⟩
  | some c =>
    by_cases hstale : c.isStale m = true
    · exact ⟨none, isLoose_none, by rw [expire, if_pos hstale, release_of_isLoose h]⟩
    · exact ⟨some c, h, by rw [expire, if_neg hstale]⟩

/-- Between brackets, too, only the candidate can stop the scanner between two tokens. -/
theorem advance_inRow_eq (keyAllowed : Bool) (k : Option Candidate) (m : Mark) (ts : List Token)
    (cs : List Char) :
    (inRow keyAllowed k m ts cs).advance =
      let b := skipBlanks true keyAllowed m false cs
      (expire b.1.mark k).map fun k => inRow b.2 k b.1.mark ts b.1.rest := by
  generalize hb : skipBlanks true keyAllowed m false cs = b
  have hmoved : (inRow keyAllowed k m ts cs).advance =
      (inRow b.2 k b.1.mark ts b.1.rest).expireCandidates.bind
        fun s => some (s.unroll s.column) := by
    rw [← hb]
    rfl
  have hexpire : (inRow b.2 k b.1.mark ts b.1.rest).expireCandidates =
      (expire b.1.mark k).map fun k => inRow b.2 k b.1.mark ts b.1.rest := by
    show (expire b.1.mark k).bind _ = _
    cases expire b.1.mark k <;> rfl
  rw [hmoved, hexpire]
  show _ = (expire b.1.mark k).map _
  -- between brackets no block ends
  cases expire b.1.mark k <;> rfl

theorem advance_inRow (h : IsLoose k) (hcs : startsEntry cs = true) :
    ∃ k', IsLoose k' ∧
      (inRow keyAllowed k m ts cs).advance = some (inRow keyAllowed k' m ts cs) := by
  obtain ⟨k', hk', hexpire⟩ := exists_expire_of_isLoose h m
  refine ⟨k', hk', ?_⟩
  rw [advance_inRow_eq, skipBlanks_of_startsEntry hcs]
  show (expire m k).map _ = _
  rw [hexpire]
  rfl

theorem advance_inRow_none (hcs : startsEntry cs = true) :
    (inRow keyAllowed none m ts cs).advance = some (inRow keyAllowed none m ts cs) := by
  rw [advance_inRow_eq, skipBlanks_of_startsEntry hcs]
  rfl

/-- Behind a comma a blank is passed over. -/
theorem advance_inRow_blank (hcs : startsEntry cs = true) :
    (inRow true none m ts (' ' :: cs)).advance = some (inRow true none (m.forward 1) ts cs) := by
  have hskip : skipBlanks true true m false (' ' :: cs) = (⟨cs, m.forward 1⟩, true) :=
    skipBlanks_of_startsEntry hcs true (m.forward 1)
  rw [advance_inRow_eq, hskip]
  rfl

theorem next_opening : (atValue m ts ('[' :: cs)).next =
    some (inRow true none (m.forward 1) (.openBracket :: ts) cs) := by
  show (atValue m ts ('[' :: cs)).take '[' cs = _
  have hopening : (atValue m ts ('[' :: cs)).takeOpening .openBracket =
      some (inRow true none (m.forward 1) (.openBracket :: ts) cs) := rfl
  simpa [take, startsMarker] using hopening

theorem next_comma (h : IsLoose k) : (inRow keyAllowed k m ts (',' :: cs)).next =
    some (inRow true none (m.forward 1) (.comma :: ts) cs) := by
  show (inRow keyAllowed k m ts (',' :: cs)).take ',' cs = _
  have hcomma : (inRow keyAllowed k m ts (',' :: cs)).takeComma =
      some (inRow true none (m.forward 1) (.comma :: ts) cs) := by
    show ((release k).map _).bind _ = _
    rw [release_of_isLoose h]
    rfl
  simpa [take, startsMarker] using hcomma

/-- Behind the closing bracket the scanner stands as behind any other value. -/
theorem next_closing (h : IsLoose k) : (inRow keyAllowed k m ts (']' :: cs)).next =
    some (atValue (m.forward 1) (.closeBracket :: ts) cs) := by
  show (inRow keyAllowed k m ts (']' :: cs)).take ']' cs = _
  have hclosing : (inRow keyAllowed k m ts (']' :: cs)).takeClosing .closeBracket =
      some (atValue (m.forward 1) (.closeBracket :: ts) cs) := by
    show ((release k).map _).bind _ = _
    rw [release_of_isLoose h]
    rfl
  simpa [take, startsMarker] using hclosing

/-- An item might still be a key, so its place is remembered. -/
theorem proceed_item {d : Char} (hu : IsWord u) (hm : m.column ≠ 0) (hd : d = ',' ∨ d = ']')
    (fuel : Nat) :
    proceed fuel (inRow true none m ts (u ++ d :: rest)) =
      run fuel (inRow false (some ⟨false, ts.length, m⟩) (m.forward u.length) (.scalar true u :: ts)
        (d :: rest)) := by
  obtain ⟨c, v, rfl⟩ := List.exists_cons_of_ne_nil hu.ne_nil
  have htake : (inRow true none m ts (c :: v ++ d :: rest)).next =
      some (inRow false (some ⟨false, ts.length, m⟩) (m.forward (c :: v).length)
        (.scalar true (c :: v) :: ts) (d :: rest)) := by
    refine (take_word (s := inRow true none m ts (c :: (v ++ d :: rest))) hu hm).trans ?_
    show (scanPlain true 1 .start m (c :: v ++ d :: rest)).bind _ = _
    rw [hu.scanPlain_item hm hd]
    rfl
  rw [proceed_of_cons rfl, htake]
  rfl

/-! ## The run through a row -/

/-- Behind an item of a row the others are read, up to the closing bracket. -/
theorem run_moreChars {us : List (List Char)} (hus : ∀ u ∈ us, IsWord u) (hk : IsLoose k)
    (hm : m.column ≠ 0) (fuel : Nat) :
    run (fuel + 1 + (moreTokens us).length) (inRow false k m ts (moreChars us ++ ']' :: rest)) =
      run fuel (atValue (m.forward ((moreChars us).length + 1))
        (.closeBracket :: ((moreTokens us).reverse ++ ts)) rest) := by
  induction us generalizing k m ts with
  | nil =>
    obtain ⟨k', hk', hadvance⟩ : ∃ k', IsLoose k' ∧ (inRow false k m ts (']' :: rest)).advance =
        some (inRow false k' m ts (']' :: rest)) := advance_inRow hk rfl
    show run (fuel + 1) (inRow false k m ts (']' :: rest)) = _
    rw [run_succ, hadvance, Option.bind_some, proceed_of_cons rfl, next_closing hk']
    rfl
  | cons u us ih =>
    rw [List.forall_mem_cons] at hus
    obtain ⟨d, tail, htail, hd⟩ := exists_moreChars us rest
    obtain ⟨k', hk', hadvance⟩ : ∃ k', IsLoose k' ∧
        (inRow false k m ts (',' :: ' ' :: (u ++ d :: tail))).advance =
          some (inRow false k' m ts (',' :: ' ' :: (u ++ d :: tail))) := advance_inRow hk rfl
    have hsplit : moreChars (u :: us) ++ ']' :: rest = ',' :: ' ' :: (u ++ d :: tail) := by
      rw [← htail]
      simp [moreChars]
    have hfuel : fuel + 1 + (moreTokens (u :: us)).length =
        fuel + 1 + (moreTokens us).length + 1 + 1 := rfl
    have hcolumn : ((m.forward 1).forward 1).column ≠ 0 := Nat.succ_ne_zero _
    have hlength : (moreChars (u :: us)).length = 1 + 1 + u.length + (moreChars us).length := by
      simp only [moreChars, List.flatMap_cons, List.length_append, List.length_cons]
      omega
    -- the comma, then the item, each with the step to what follows it
    rw [hsplit, hfuel, run_succ, hadvance, Option.bind_some, proceed_of_cons rfl, next_comma hk',
      Option.bind_some, run_succ, advance_inRow_blank (hus.1.startsEntry_append _),
      Option.bind_some, proceed_item hus.1 hcolumn hd, ← htail,
      ih hus.2 (by rintro _ ⟨⟩; rfl) (by simp [Mark.forward])]
    simp only [Mark.forward_forward, hlength, Nat.add_assoc]
    simp [moreTokens]

/-- A row behind a key is read with its line. -/
theorem proceed_row {us : List (List Char)} (hus : ∀ u ∈ us, IsWord u)
    (hr : startsEntry rest = true) (fuel : Nat) :
    ∃ m', m'.column = 0 ∧ ∀ ts,
      proceed (fuel + (rowTokens us).length) (atValue m ts (rowChars us ++ '\n' :: rest)) =
        proceed fuel (atEntry true m' ((rowTokens us).reverse ++ ts) rest) := by
  cases us with
  | nil =>
    refine ⟨((m.forward 1).forward 1).newLine 1, rfl, ?_⟩
    intro ts
    show proceed (fuel + 1 + 1) (atValue m ts ('[' :: ']' :: '\n' :: rest)) = _
    rw [proceed_of_cons rfl, next_opening, Option.bind_some, run_succ, advance_inRow_none rfl,
      Option.bind_some, proceed_of_cons rfl, next_closing isLoose_none, Option.bind_some, run_succ,
      advance_newLine hr]
    rfl
  | cons u us =>
    rw [List.forall_mem_cons] at hus
    obtain ⟨d, tail, htail, hd⟩ := exists_moreChars us ('\n' :: rest)
    have hsplit : rowChars (u :: us) ++ '\n' :: rest = '[' :: (u ++ d :: tail) := by
      rw [rowChars, commaSpaced_cons, ← htail]
      simp
    have hfuel : fuel + (rowTokens (u :: us)).length =
        fuel + 1 + 1 + (moreTokens us).length + 1 := by
      simp only [rowTokens, List.length_cons, List.length_append, List.length_nil]
      omega
    refine ⟨(((m.forward 1).forward u.length).forward ((moreChars us).length + 1)).newLine 1, rfl,
      ?_⟩
    intro ts
    rw [hsplit, hfuel, proceed_of_cons rfl, next_opening, Option.bind_some, run_succ,
      advance_inRow_none (hus.1.startsEntry_append _), Option.bind_some,
      proceed_item hus.1 (Nat.succ_ne_zero _) hd, ← htail,
      run_moreChars hus.2 (by rintro _ ⟨⟩; rfl) (by simp [Mark.forward]), run_succ,
      advance_newLine hr]
    simp [rowTokens]

end

end Scanner

end Keepsake.Yaml
