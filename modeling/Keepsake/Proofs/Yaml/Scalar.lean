import Keepsake.Proofs.Yaml.Plain
import Keepsake.Proofs.Yaml.Quoted
import Keepsake.Yaml.Token
/-!
# The scalars of an entry as tokens

Between two tokens of an entry the scanner stands outside brackets, perhaps with the key as a
candidate (`outside`). From there each written form of a text is one token, but for a plain value
that looks like an indicator, and for the header that is left of a literal scalar: as a value that
is a scalar without text, as a key it is refused.
-/

namespace Keepsake.Yaml

namespace Scanner

/-- The scanner outside brackets; `opened` tells whether the block of the mapping is open. -/
def outside (opened keyAllowed : Bool) (candidate : Option Candidate) (m : Mark) (ts : List Token)
    (cs : List Char) : Scanner where
  cursor := ⟨cs, m⟩
  tokens := ts
  count := ts.length
  indent := if opened then 0 else -1
  outer := if opened then [-1] else []
  keyAllowed := keyAllowed
  candidate := candidate
  outerCandidates := []

/-- The scanner at the start of an entry. -/
abbrev atEntry (opened : Bool) : Mark → List Token → List Char → Scanner := outside opened true none

/-- The scanner behind the colon of an entry. -/
abbrev atValue : Mark → List Token → List Char → Scanner := outside true false none

/-- The run of a scanner that has moved to its next token. -/
def proceed (fuel : Nat) (s : Scanner) : Option (List Token) :=
  match s.cursor.rest with
  | [] => s.finish
  | c :: rest => (s.take c rest).bind (run fuel)

theorem run_succ (fuel : Nat) (s : Scanner) :
    run (fuel + 1) s = s.advance.bind (proceed fuel) := rfl

section

variable {s : Scanner} {c : Char} {rest : List Char}

/-! ## Choice of the token -/

theorem take_plain (hflow : c = '?' ∨ c = ':' → s.inFlow = false)
    (hlead : isLeadingIndicator c = false) (hblank : isBlank c = false) (hbreak : isBreak c = false)
    (hstart : c = '-' ∨ c = '?' ∨ c = ':' → startsBlank rest = false)
    (hmarker : s.column = 0 → startsMarker (c :: rest) = false) : s.take c rest = s.takePlain := by
  have hnot : ∀ {d}, isLeadingIndicator d = true → c ≠ d := by
    rintro d hd rfl
    rw [hlead] at hd
    cases hd
  have hstarts : startsPlain s.inFlow c rest = true := by
    by_cases h : c = '-' ∨ c = '?' ∨ c = ':'
    · have hrest := hstart h
      have hhead : rest.head?.any isBlank = false := by
        cases rest with
        | nil => rfl
        | cons d rest => exact (Bool.or_eq_false_iff.1 hrest).1
      rcases h with rfl | rfl | rfl
      · simp [startsPlain, hhead]
      · simp [startsPlain, hflow (Or.inl rfl), hrest]
      · simp [startsPlain, hflow (Or.inr rfl), hrest]
    · have hindicator : isIndicator c = false := by
        simp only [isLeadingIndicator, isIndicator, List.contains_eq_mem, decide_eq_false_iff_not,
          List.mem_cons, not_or] at hlead h ⊢
        simp_all
      simp [startsPlain, hblank, hbreak, hindicator]
  -- every other choice asks for an indicator that leads, or for a blank behind one
  unfold take
  rw [if_neg (fun h => hnot (by decide) h.2), if_neg (fun h => by simp [hmarker h.1] at h),
    if_neg (hnot (by decide)), if_neg (hnot (by decide)), if_neg (hnot (by decide)),
    if_neg (hnot (by decide)), if_neg (hnot (by decide)),
    if_neg (fun h => by simp [hstart (Or.inl h.1)] at h),
    if_neg (fun h => by simp [hstart (Or.inr (Or.inl h.1)), hflow (Or.inl h.1)] at h),
    if_neg (fun h => by simp [hstart (Or.inr (Or.inr h.1)), hflow (Or.inr h.1)] at h),
    if_neg (hnot (by decide)), if_neg (hnot (by decide)), if_neg (hnot (by decide)),
    if_neg (fun h => hnot (by decide) h.1), if_neg (fun h => hnot (by decide) h.1),
    if_neg (hnot (by decide)), if_neg (hnot (by decide)), if_pos hstarts]

theorem take_single (rest : List Char) : s.take '\'' rest = s.takeQuoted false := by
  simp [take, startsMarker]

theorem take_double (rest : List Char) : s.take '"' rest = s.takeQuoted true := by
  simp [take, startsMarker]

theorem take_literal (hflow : s.inFlow = false) (rest : List Char) :
    s.take '|' rest = s.takeBlockScalar false := by
  simp [take, startsMarker, hflow]

theorem take_colon (h : startsBlank rest = true) : s.take ':' rest = s.takeValue := by
  simp [take, startsMarker, h]

end

section

variable {opened : Bool} {m m' : Mark} {t : Token} {ts : List Token} {c : Char}
variable {cs rest : List Char}
  {text : List Char} {plain : Bool}

/-! ## Between the tokens -/

theorem skipBlanks_of_startsEntry {inFlow : Bool} (h : startsEntry cs = true) (keyAllowed : Bool)
    (m : Mark) : skipBlanks inFlow keyAllowed m false cs = (⟨cs, m⟩, keyAllowed) := by
  cases cs with
  | nil => rfl
  | cons c cs =>
    simp only [startsEntry, Bool.not_eq_true', Bool.or_eq_false_iff, decide_eq_false_iff_not] at h
    obtain ⟨⟨⟨hblank, hbreak⟩, hhash⟩, hmark⟩ := h
    simp only [isBlank, Bool.or_eq_false_iff, decide_eq_false_iff_not] at hblank
    have hreturn : c ≠ '\r' := by
      rintro rfl
      cases hbreak
    rw [skipBlanks]
    · rw [if_neg (by simp [hbreak]), if_neg (by simp), if_neg (by simp [hblank, hmark]),
        if_neg hhash]
    · exact fun _ h => absurd h hreturn

theorem unroll_outside {column : Int} (h : 0 ≤ column) (opened keyAllowed : Bool)
    (k : Option Candidate) (m : Mark) (ts : List Token) (cs : List Char) :
    (outside opened keyAllowed k m ts cs).unroll column = outside opened keyAllowed k m ts cs := by
  cases opened with
  | true =>
    have hclose : closeBlocks column 0 [-1] ts ts.length = (0, [-1], ts, ts.length) := by
      rw [closeBlocks, if_neg (by omega)]
    simp [unroll, outside, inFlow, hclose]
  | false => rfl

/-- Outside brackets only the candidate can stop the scanner between two tokens. -/
theorem advance_outside (opened keyAllowed : Bool) (k : Option Candidate) (m : Mark)
    (ts : List Token) (cs : List Char) :
    (outside opened keyAllowed k m ts cs).advance =
      let b := skipBlanks false keyAllowed m false cs
      (expire b.1.mark k).map fun k => outside opened b.2 k b.1.mark ts b.1.rest := by
  simp only [advance]
  generalize hb : skipBlanks (outside opened keyAllowed k m ts cs).inFlow
    (outside opened keyAllowed k m ts cs).keyAllowed
      (outside opened keyAllowed k m ts cs).cursor.mark false
    (outside opened keyAllowed k m ts cs).cursor.rest = b
  have hb' : skipBlanks false keyAllowed m false cs = b := hb
  rw [hb']
  show ((outside opened b.2 k b.1.mark ts b.1.rest).expireCandidates).bind
    (fun s => some (s.unroll s.column)) = _
  have hexpire : (outside opened b.2 k b.1.mark ts b.1.rest).expireCandidates
      = (expire b.1.mark k).map fun k => outside opened b.2 k b.1.mark ts b.1.rest := by
    show (expire b.1.mark k).bind _ = _
    cases expire b.1.mark k <;> rfl
  rw [hexpire]
  cases expire b.1.mark k with
  | none => rfl
  | some k => exact congrArg some (unroll_outside (Int.natCast_nonneg _) ..)

theorem advance_of_startsEntry (h : startsEntry cs = true) (keyAllowed : Bool) :
    (outside opened keyAllowed none m ts cs).advance =
      some (outside opened keyAllowed none m ts cs) := by
  rw [advance_outside, skipBlanks_of_startsEntry h]
  rfl

/-- Behind a value the line ends and the next entry starts. -/
theorem advance_newLine (h : startsEntry cs = true) (keyAllowed : Bool) :
    (outside true keyAllowed none m ts ('\n' :: cs)).advance =
      some (atEntry true (m.newLine 1) ts cs) := by
  have hskip : skipBlanks false keyAllowed m false ('\n' :: cs) = (⟨cs, m.newLine 1⟩, true) := by
    show skipBlanks false (keyAllowed || !false) (m.newLine 1) false cs = _
    rw [skipBlanks_of_startsEntry h]
    simp
  rw [advance_outside, hskip]
  rfl

theorem advance_blank (h : startsEntry cs = true) :
    (atValue m ts (' ' :: cs)).advance = some (atValue (m.forward 1) ts cs) := by
  have hskip : skipBlanks false false m false (' ' :: cs) = (⟨cs, m.forward 1⟩, false) :=
    skipBlanks_of_startsEntry h false (m.forward 1)
  rw [advance_outside, hskip]
  rfl

/-- Where a value was cut to nothing, the line ends behind its blank. -/
theorem advance_blank_newLine (h : startsEntry cs = true) :
    (atValue m ts (' ' :: '\n' :: cs)).advance =
      some (atEntry true ((m.forward 1).newLine 1) ts cs) := by
  have hskip : skipBlanks false false m false (' ' :: '\n' :: cs) =
      (⟨cs, (m.forward 1).newLine 1⟩, true) :=
    skipBlanks_of_startsEntry h true ((m.forward 1).newLine 1)
  rw [advance_outside, hskip]
  rfl

/-! ## Scalars -/

/--
The candidate for a scalar at the start of an entry, which has to be a key once the block is open.
-/
def keyAt (opened keyAllowed : Bool) (m : Mark) (ts : List Token) : Option Candidate :=
  if keyAllowed then some ⟨opened, ts.length, m⟩ else none

theorem saveCandidate_outside {keyAllowed : Bool} (hm : keyAllowed = true → m.column = 0) :
    (outside opened keyAllowed none m ts cs).saveCandidate =
      some (outside opened keyAllowed (keyAt opened keyAllowed m ts) m ts cs) := by
  cases keyAllowed with
  | false => rfl
  | true =>
    have hm := hm rfl
    cases opened <;>
      simp [saveCandidate, outside, keyAt, releaseCandidate, release, inFlow, column, hm]

theorem takePlain_outside {keyAllowed : Bool} (hm : keyAllowed = true → m.column = 0) :
    (outside opened keyAllowed none m ts cs).takePlain =
      (scanPlain false ((if opened then 0 else -1) + 1) .start m cs).map fun r =>
        outside opened r.2.2 (keyAt opened keyAllowed m ts) r.2.1.mark (.scalar true r.1 :: ts)
          r.2.1.rest := by
  unfold takePlain
  rw [saveCandidate_outside hm]
  show (scanPlain false ((if opened then 0 else -1) + 1) .start m cs).bind _ = _
  cases scanPlain false ((if opened then 0 else -1) + 1) .start m cs <;> rfl

theorem takeQuoted_outside {keyAllowed : Bool} (hm : keyAllowed = true → m.column = 0)
    (double : Bool) (q : Char) :
    (outside opened keyAllowed none m ts (q :: cs)).takeQuoted double =
      (if double then scanDouble .start (m.forward 1) .none cs
        else scanSingle .start (m.forward 1) cs).map fun r =>
        outside opened false (keyAt opened keyAllowed m ts) r.2.mark
          (.scalar false r.1 :: ts) r.2.rest := by
  unfold takeQuoted
  rw [saveCandidate_outside hm]
  cases double with
  | true =>
    show (scanDouble .start (m.forward 1) .none cs).bind _ = Option.map _ (scanDouble ..)
    cases scanDouble .start (m.forward 1) .none cs <;> rfl
  | false =>
    show (scanSingle .start (m.forward 1) cs).bind _ = Option.map _ (scanSingle ..)
    cases scanSingle .start (m.forward 1) cs <;> rfl

/-- The next token and the way to the one behind it. -/
def next (s : Scanner) : Option Scanner :=
  match s.cursor.rest with
  | [] => none
  | c :: rest => s.take c rest

end

section

variable {opened keyAllowed : Bool} {m : Mark} {ts : List Token} {cs rest : List Char}

/-- A scalar in quotes is read up to its last quote. -/
theorem next_quoted (h : IsQuoted cs) (hm : keyAllowed = true → m.column = 0)
    (hrest : rest.head? ≠ some '\'') :
    (outside opened keyAllowed none m ts (textChars cs ++ rest)).next =
      (quotedRead? cs).map fun text =>
        outside opened false (keyAt opened keyAllowed m ts) (m.after (textChars cs))
          (.scalar false text :: ts) rest := by
  obtain h | h | ⟨h, hw⟩ := h
  · obtain ⟨body, hbody, hscan⟩ := scanSingle_textChars h m hrest
    rw [hbody, List.cons_append, quotedRead?, if_neg (by simp [h])]
    show (outside opened keyAllowed none m ts ('\'' :: (body ++ rest))).take '\'' (body ++ rest) = _
    rw [take_single, takeQuoted_outside hm, if_neg (by decide), hscan]
    rfl
  · obtain ⟨body, hbody, hscan⟩ := scanDouble_textChars h m rest
    rw [hbody, List.cons_append, quotedRead?, if_neg (by simp [h])]
    show (outside opened keyAllowed none m ts ('"' :: (body ++ rest))).take '"' (body ++ rest) = _
    rw [take_double, takeQuoted_outside hm, if_pos rfl, hscan]
    rfl
  · obtain ⟨body, hbody, hscan⟩ := scanDouble_textChars_of_literal h hw m rest
    rw [hbody, List.cons_append]
    show (outside opened keyAllowed none m ts ('"' :: (body ++ rest))).take '"' (body ++ rest) = _
    rw [take_double, takeQuoted_outside hm, if_pos rfl, hscan, Option.map_map]
    rfl

theorem next_plain (h : styleOf cs = .plain) {c : Char} {u : List Char} (hu : textChars cs = c :: u)
    (hm : keyAllowed = true → m.column = 0) {d : Char} {rest : List Char}
    (hstart : c = '-' ∨ c = '?' ∨ c = ':' → u = [] → startsBlank (d :: rest) = false)
    (hmarker : m.column = 0 → startsMarker (c :: (u ++ d :: rest)) = false) :
    (outside opened keyAllowed none m ts (textChars cs ++ d :: rest)).next =
      (scanPlain false ((if opened then 0 else -1) + 1) .start m
        (textChars cs ++ d :: rest)).map fun r =>
        outside opened r.2.2 (keyAt opened keyAllowed m ts) r.2.1.mark (.scalar true r.1 :: ts)
          r.2.1.rest := by
  have hhead := plainHead_of_styleOf h hu
  have hblank : c = '-' ∨ c = '?' ∨ c = ':' → startsBlank (u ++ d :: rest) = false := by
    intro hc
    by_cases hnil : u = []
    · subst hnil
      exact hstart hc rfl
    · exact hhead.next hc hnil _
  have htake := take_plain (s := outside opened keyAllowed none m ts (c :: (u ++ d :: rest)))
    (fun _ => rfl) hhead.noIndicator hhead.noBlank hhead.noBreak hblank hmarker
  rw [hu, List.cons_append]
  exact htake.trans (takePlain_outside hm)

theorem next_plainKey (h : styleOf cs = .plain) (hne : textChars cs ≠ []) (hm : m.column = 0) :
    (atEntry opened m ts (textChars cs ++ ':' :: ' ' :: rest)).next =
      some (outside opened false (keyAt opened true m ts) (m.after (textChars cs))
        (.scalar true (textChars cs) :: ts) (':' :: ' ' :: rest)) := by
  obtain ⟨c, u, hu⟩ := List.exists_cons_of_ne_nil hne
  obtain ⟨t, -, hpart⟩ := plainPart_textChars h
  have hmarker : startsMarker (c :: (u ++ ':' :: ' ' :: rest)) = false :=
    startsMarker_append (hu ▸ hpart.noMarker) (' ' :: rest)
  have hindent : (if opened then 0 else -1 : Int) + 1 ≤ 1 := by cases opened <;> decide
  rw [next_plain h hu (fun _ => hm) (fun _ _ => rfl) fun _ => hmarker,
    hpart.scanPlain_key (exists_getLast?_textChars h hne) hindent,
    Mark.after_eq_forward hpart.noBreak]
  rfl

theorem next_plainValue (h : styleOf cs = .plain) (hne : textChars cs ≠ []) (hm : m.column ≠ 0)
    (hr : startsEntry rest = true) (hread : ¬(textChars cs = ['-'] ∨ textChars cs = ['?'] ∨
      (textChars cs).getLast? = some ':')) :
    (atValue m ts (textChars cs ++ '\n' :: rest)).next =
      some (outside true true none ((m.after (textChars cs)).newLine 1)
        (.scalar true (textChars cs) :: ts)
        rest) := by
  obtain ⟨c, u, hu⟩ := List.exists_cons_of_ne_nil hne
  obtain ⟨t, -, hpart⟩ := plainPart_textChars h
  rw [not_or, not_or] at hread
  have hstart : c = '-' ∨ c = '?' ∨ c = ':' → u = [] → startsBlank ('\n' :: rest) = false := by
    rintro (rfl | rfl | rfl) rfl
    · exact absurd hu hread.1
    · exact absurd hu hread.2.1
    · exact absurd (by rw [hu]; rfl) hread.2.2
  rw [next_plain h hu (fun h => absurd h Bool.false_ne_true) hstart fun h => absurd h hm]
  show Option.map _ (scanPlain false 1 .start m _) = _
  rw [hpart.scanPlain_value (exists_getLast?_textChars h hne) hread.2.2 hm hr,
    Mark.after_eq_forward hpart.noBreak]
  rfl

/-- Behind a value there is no place for another colon. -/
theorem next_valueColon (hr : startsBlank rest = true) :
    (outside opened false none m ts (':' :: rest)).next = none := by
  show (outside opened false none m ts (':' :: rest)).take ':' rest = none
  rw [take_colon hr]
  rfl

theorem proceed_of_cons {s : Scanner} {c : Char} (h : s.cursor.rest = c :: rest) (fuel : Nat) :
    proceed fuel s = s.next.bind (run fuel) := by
  unfold proceed next
  rw [h]

theorem proceed_of_next_eq_none {s : Scanner} {c : Char} (h : s.cursor.rest = c :: rest)
    (hn : s.next = none) (fuel : Nat) : proceed fuel s = none := by
  rw [proceed_of_cons h, hn]
  rfl

/-- A plain value that ends in a colon, or is an indicator by itself, is refused. -/
theorem proceed_plainValue_eq_none (h : styleOf cs = .plain) (hm : m.column ≠ 0)
    (hread : textChars cs = ['-'] ∨ textChars cs = ['?'] ∨ (textChars cs).getLast? = some ':')
    (rest : List Char) (fuel : Nat) :
    proceed fuel (atValue m ts (textChars cs ++ '\n' :: rest)) = none := by
  obtain hu | hu | hu := hread
  · rw [hu]
    refine proceed_of_next_eq_none rfl ?_ fuel
    show (atValue m ts ('-' :: '\n' :: rest)).take '-' ('\n' :: rest) = none
    simp [take, startsMarker, startsBlank, isBreak, takeEntry, outside, inFlow]
  · rw [hu]
    refine proceed_of_next_eq_none rfl ?_ fuel
    show (atValue m ts ('?' :: '\n' :: rest)).take '?' ('\n' :: rest) = none
    simp [take, startsMarker, startsBlank, isBreak, takeKey, outside, inFlow]
  · obtain ⟨u, hu⟩ := List.getLast?_eq_some_iff.1 hu
    obtain ⟨t, -, hpart⟩ := plainPart_textChars h
    rcases u with _ | ⟨c, u⟩
    · rw [hu]
      exact proceed_of_next_eq_none rfl (next_valueColon rfl) fuel
    · -- the scalar ends before its colon, which then stands behind a value
      obtain ⟨text, hscan⟩ := (hu ▸ hpart).scanPlain_colon hm rest
      have hnext : (atValue m ts (textChars cs ++ '\n' :: rest)).next =
          (scanPlain false 1 .start m (textChars cs ++ '\n' :: rest)).map fun r =>
            outside true r.2.2 none r.2.1.mark (.scalar true r.1 :: ts) r.2.1.rest :=
        next_plain h hu (fun h => absurd h Bool.false_ne_true) (fun _ h => absurd h (by simp))
          fun h => absurd h hm
      rw [hu] at hnext ⊢
      rw [proceed_of_cons rfl, hnext, hscan]
      simp only [Option.map_some, Option.bind_some]
      cases fuel with
      | zero => rfl
      | succ fuel =>
        rw [run_succ, advance_of_startsEntry rfl, Option.bind_some]
        refine proceed_of_next_eq_none rfl ?_ fuel
        exact next_valueColon rfl

/-! ## Literal scalars of which only the header is left -/

theorem read_literalHints (cs : List Char) :
    ∃ header : BlockHeader, header.increment ≠ some 0 ∧
      (∀ rest, BlockHeader.read (literalHints cs ++ '\n' :: rest) =
        (header, (literalHints cs).length)) ∧
      ∀ rest, BlockHeader.read (literalHints cs ++ ':' :: rest) =
        (header, (literalHints cs).length) := by
  have hhints : ∀ hints ∈ [[], ['-'], ['+'], ['2'], ['2', '-'], ['2', '+']],
      ∃ header : BlockHeader, header.increment ≠ some 0 ∧
        (∀ rest, BlockHeader.read (hints ++ '\n' :: rest) = (header, hints.length)) ∧
        ∀ rest, BlockHeader.read (hints ++ ':' :: rest) = (header, hints.length) := by
    simp only [List.forall_mem_cons]
    refine ⟨?_, ?_, ?_, ?_, ?_, ?_, fun _ h => (by cases h)⟩ <;>
      exact ⟨_, by decide, fun _ => rfl, fun _ => rfl⟩
  -- hints depend on the first and the last two characters only
  refine hhints _ ?_
  unfold literalHints
  split
  · split
    · decide
    · split <;> decide
    · split
      · decide
      · split <;> decide
  · split
    · decide
    · split <;> decide
    · split
      · decide
      · split <;> decide

/-- A body without a line leaves no text. -/
theorem result_read_of_startsEntry {header : BlockHeader} (hh : header.increment ≠ some 0)
    (hm : m.column = 0) (hr : startsEntry rest = true) :
    ∃ b, BlockBody.read false 0 (.start header 0) m false rest = some (b, ⟨rest, m⟩) ∧
      b.result header.chomp = [] := by
  have hempty : ∀ b : BlockBody, b.text = [] → b.leading = none → b.trailing = [] →
      b.result header.chomp = [] := by
    intro b h₁ h₂ h₃
    unfold BlockBody.result
    split <;> simp [h₁, h₂, h₃]
  cases rest with
  | nil => exact ⟨_, rfl, hempty _ rfl rfl rfl⟩
  | cons c rest =>
    simp only [startsEntry, Bool.not_eq_true', Bool.or_eq_false_iff, isBlank,
      decide_eq_false_iff_not] at hr
    obtain ⟨⟨⟨⟨hspace, htab⟩, hbreak⟩, -⟩, -⟩ := hr
    have hreturn : c ≠ '\r' := by
      rintro rfl
      cases hbreak
    -- at column zero no line of the body begins
    have hindent : ((BlockBody.start header 0).settleIndent 0 m.column).indent ≠ some m.column := by
      rw [hm]
      cases hi : header.increment with
      | none => simp [BlockBody.start, BlockBody.settleIndent, hi]
      | some n =>
        rw [hi] at hh
        simpa [BlockBody.start, BlockBody.settleIndent, hi] using hh
    refine ⟨(BlockBody.start header 0).settleIndent 0 m.column, ?_, ?_⟩
    · rw [BlockBody.read]
      · rw [if_neg (by simp [hbreak]), if_neg (by simp), if_neg (by simp [hspace]),
          if_neg (by simp [htab])]
        exact if_neg hindent
      · exact fun _ h => absurd h hreturn
    · unfold BlockBody.settleIndent
      split <;> exact hempty _ rfl rfl rfl

theorem next_blankKey (h : styleOf cs = .literal) (hw : cs.all isWhiteSpace = true) :
    (atEntry opened m ts (textChars cs ++ ':' :: rest)).next = none := by
  obtain ⟨header, -, -, hread⟩ := read_literalHints cs
  rw [textChars_of_literal_blank h hw, List.cons_append]
  show (atEntry opened m ts ('|' :: (literalHints cs ++ ':' :: rest))).take '|' _ = none
  rw [take_literal rfl]
  have hscan : ∀ indent,
      scanBlock false indent ⟨literalHints cs ++ ':' :: rest, m.forward 1⟩ = none := by
    intro indent
    unfold scanBlock
    rw [hread]
    simp [Cursor.forward, Cursor.endLine, Cursor.skipWhile, Cursor.skipComment, isBlank,
      startsBreak, isBreak]
  unfold takeBlockScalar
  show (scanBlock false _ ⟨literalHints cs ++ ':' :: rest, m.forward 1⟩).bind _ = none
  rw [hscan]
  rfl

theorem next_blankValue (h : styleOf cs = .literal) (hw : cs.all isWhiteSpace = true)
    (hr : startsEntry rest = true) :
    ∃ m', m'.column = 0 ∧ ∀ ts, (atValue m ts (textChars cs ++ '\n' :: rest)).next =
      some (outside true true none m' (.scalar false [] :: ts) rest) := by
  obtain ⟨header, hh, hread, -⟩ := read_literalHints cs
  generalize hm' : ((m.forward 1).forward (literalHints cs).length).newLine 1 = m'
  have hcolumn : m'.column = 0 := hm' ▸ rfl
  refine ⟨m', hcolumn, ?_⟩
  intro ts
  obtain ⟨b, hbody, hresult⟩ := result_read_of_startsEntry hh hcolumn hr
  have hend : ((⟨literalHints cs ++ '\n' :: rest, m.forward 1⟩ : Cursor).forward
      (literalHints cs).length).endLine = some ⟨rest, m'⟩ := by
    rw [Cursor.forward, List.drop_left, ← hm']
    rfl
  have hscan : scanBlock false 0 ⟨literalHints cs ++ '\n' :: rest, m.forward 1⟩ =
      some ([], ⟨rest, m'⟩) := by
    unfold scanBlock
    rw [hread]
    simp only [hend, hbody, hresult, Option.bind_some, bind]
  rw [textChars_of_literal_blank h hw, List.cons_append]
  show (atValue m ts ('|' :: (literalHints cs ++ '\n' :: rest))).take '|' _ = _
  rw [take_literal rfl]
  unfold takeBlockScalar
  show (scanBlock false 0 ⟨literalHints cs ++ '\n' :: rest, m.forward 1⟩).bind _ = _
  rw [hscan]
  rfl

end

end Scanner

end Keepsake.Yaml
