import Keepsake.Proofs.Yaml.Row
/-!
# The tokens of an entry's line

The line of an entry takes the tokens of its key, of a colon and of its value (`Node`), of which
each takes at least one character. The key has to end on its line and within 1024 characters; else
its candidate is stale before the colon comes. Behind the value the scanner stands at the next
entry. So the tokens of a file are those of its lines (`proceed_lines`).
-/

namespace Keepsake.Yaml

/-- The scalar in front of the colon of a key: whether it is plain, and its text. -/
def keyScalar? (cs : List Char) : Option (Bool × List Char) :=
  if styleOf cs = .plain then some (true, textChars cs)
  else if styleOf cs = .literal ∧ cs.all isWhiteSpace = true then none
  else (quotedRead? cs).map (false, ·)

/-- The scalar that is read of a text as a key: it has to be near its colon, on the same line. -/
def keyRead? (cs : List Char) : Option (Bool × List Char) :=
  if (textChars cs).any isBreak ∨ Candidate.reach < (textChars cs).length then none
  else keyScalar? cs

/--
What is read of a plain value: one that is an indicator by itself or ends in a colon is refused.
-/
def plainRead? (u : List Char) : Option (List Char) :=
  if u = ['-'] ∨ u = ['?'] ∨ u.getLast? = some ':' then none else some u

/-- The scalar that is read of a text as a value. -/
def textRead? (cs : List Char) : Option (Bool × List Char) :=
  if styleOf cs = .plain then (plainRead? (textChars cs)).map (true, ·)
  else if styleOf cs = .literal ∧ cs.all isWhiteSpace = true then some (false, [])
  else (quotedRead? cs).map (false, ·)

theorem isQuoted_of_not {cs : List Char} (hp : styleOf cs ≠ .plain)
    (hw : ¬(styleOf cs = .literal ∧ cs.all isWhiteSpace = true)) : IsQuoted cs := by
  cases h : styleOf cs with
  | plain => exact absurd h hp
  | single => exact Or.inl h
  | double => exact Or.inr (Or.inl h)
  | literal => exact Or.inr (Or.inr ⟨h, by simpa [h] using hw⟩)

theorem Candidate.isStale_after (required : Bool) (n : Nat) (m : Mark) (cs : List Char) :
    (⟨required, n, m⟩ : Candidate).isStale (m.after cs) =
      (cs.any isBreak || decide (Candidate.reach < cs.length)) := by
  unfold isStale
  cases hb : cs.any isBreak with
  | true => simp [Mark.line_lt_after hb]
  | false =>
    rw [Mark.after_eq_forward hb]
    simp [Mark.forward]

namespace Scanner

section

variable {opened : Bool} {m m' : Mark} {t : Token} {ts : List Token} {k v rest : List Char}

/-- The colon behind a key that is a candidate marks the key. -/
theorem next_keyColon (hm : m.column = 0) (hr : startsBlank rest = true) :
    (outside opened false (keyAt opened true m ts) m' (t :: ts) (':' :: rest)).next =
      some (atValue (m'.forward 1) (.value :: t :: .key ::
        (if opened then ts else .blockMapping :: ts))
        rest) := by
  show (outside opened false (keyAt opened true m ts) m' (t :: ts) (':' :: rest)).take ':' rest = _
  rw [take_colon hr]
  have hbehind : ts.length + 1 - ts.length = 1 := by omega
  cases opened <;>
    simp [takeValue, outside, keyAt, opensBlock, inFlow, emitAt, emit, forward, Cursor.forward, hm,
      hbehind]

/-- The scanner behind a key, if there is one. -/
theorem next_key (hk : textChars k ≠ []) (hm : m.column = 0) :
    (atEntry opened m ts (textChars k ++ ':' :: ' ' :: rest)).next =
      (keyScalar? k).map fun r =>
        outside opened false (keyAt opened true m ts) (m.after (textChars k))
          (.scalar r.1 r.2 :: ts) (':' :: ' ' :: rest) := by
  unfold keyScalar?
  by_cases hp : styleOf k = .plain
  · rw [if_pos hp, next_plainKey hp hk hm]
    rfl
  · rw [if_neg hp]
    by_cases hw : styleOf k = .literal ∧ k.all isWhiteSpace = true
    · rw [if_pos hw, next_blankKey hw.1 hw.2]
      rfl
    · rw [if_neg hw, next_quoted (isQuoted_of_not hp hw) (fun _ => hm) (by simp), Option.map_map]
      rfl

/-- A key that is too long, or not on one line, is forgotten before its colon. -/
theorem proceed_staleKey
    (hstale : (textChars k).any isBreak = true ∨ Candidate.reach < (textChars k).length)
    (fuel : Nat) :
    ((outside opened false (keyAt opened true m ts) (m.after (textChars k)) (t :: ts)
      (':' :: ' ' :: rest)).advance).bind (proceed fuel) = none := by
  have hskip : skipBlanks false false (m.after (textChars k)) false (':' :: ' ' :: rest) =
      (⟨':' :: ' ' :: rest, m.after (textChars k)⟩, false) := skipBlanks_of_startsEntry rfl false _
  have hstale : (⟨opened, ts.length, m⟩ : Candidate).isStale (m.after (textChars k)) = true := by
    rw [Candidate.isStale_after]
    simpa using hstale
  rw [advance_outside, hskip]
  simp only [keyAt, if_true, expire, hstale, release]
  cases opened with
  | true => rfl
  | false =>
    simp only [Bool.false_eq_true, if_false, Option.map_some, Option.bind_some]
    refine proceed_of_next_eq_none rfl ?_ fuel
    exact next_valueColon rfl

/-- Behind any other key the scanner comes to the colon. -/
theorem advance_key (hline : (textChars k).any isBreak = false)
    (hnear : (textChars k).length ≤ Candidate.reach) {s : Scanner}
    (hs : s = outside opened false (keyAt opened true m ts) (m.after (textChars k)) (t :: ts)
      (':' :: rest)) : s.advance = some s := by
  have hskip : skipBlanks false false (m.after (textChars k)) false (':' :: rest) =
      (⟨':' :: rest, m.after (textChars k)⟩, false) := skipBlanks_of_startsEntry rfl false _
  have hstale : (⟨opened, ts.length, m⟩ : Candidate).isStale (m.after (textChars k)) = false := by
    rw [Candidate.isStale_after, hline]
    simpa using hnear
  rw [hs, advance_outside, hskip]
  simp [keyAt, expire, hstale]

theorem proceed_key (hk : textChars k ≠ []) (hm : m.column = 0) (fuel : Nat) :
    proceed (fuel + 2) (atEntry opened m ts (textChars k ++ ':' :: ' ' :: rest)) =
      (keyRead? k).bind fun r =>
        ((atValue ((m.after (textChars k)).forward 1)
          (.value :: .scalar r.1 r.2 :: .key :: (if opened then ts else .blockMapping :: ts))
          (' ' :: rest)).advance).bind (proceed fuel) := by
  obtain ⟨c, u, hu⟩ := List.exists_cons_of_ne_nil hk
  have hcons : (atEntry opened m ts (textChars k ++ ':' :: ' ' :: rest)).cursor.rest =
      c :: (u ++ ':' :: ' ' :: rest) := by
    rw [hu]
    rfl
  rw [proceed_of_cons hcons, next_key hk hm, keyRead?]
  by_cases hstale : (textChars k).any isBreak = true ∨ Candidate.reach < (textChars k).length
  · -- whatever the scalar is, its candidate is gone before the colon comes
    rw [if_pos hstale, Option.bind_none]
    cases keyScalar? k with
    | none => rfl
    | some r => exact proceed_staleKey hstale (fuel + 1)
  · rw [if_neg hstale]
    rw [not_or, Nat.not_lt] at hstale
    cases keyScalar? k with
    | none => rfl
    | some r =>
      rw [Option.map_some, Option.bind_some, run_succ,
        advance_key (by simpa using hstale.1) hstale.2 rfl, Option.bind_some, proceed_of_cons rfl,
        next_keyColon hm rfl]
      rfl

/-- A text behind a key is one token with its line. -/
theorem proceed_text (hv : textChars v ≠ []) (hm : m.column ≠ 0) (hr : startsEntry rest = true)
    (fuel : Nat) :
    ∃ m', m'.column = 0 ∧ ∀ ts, proceed (fuel + 1) (atValue m ts (textChars v ++ '\n' :: rest)) =
      (textRead? v).bind fun r => proceed fuel (atEntry true m' (.scalar r.1 r.2 :: ts) rest) := by
  obtain ⟨c, u, hu⟩ := List.exists_cons_of_ne_nil hv
  have hcons : ∀ ts, (atValue m ts (textChars v ++ '\n' :: rest)).cursor.rest =
      c :: (u ++ '\n' :: rest) := by
    rw [hu]
    exact fun _ => rfl
  unfold textRead?
  by_cases hp : styleOf v = .plain
  · rw [if_pos hp]
    refine ⟨(m.after (textChars v)).newLine 1, rfl, ?_⟩
    intro ts
    by_cases hread : textChars v = ['-'] ∨ textChars v = ['?'] ∨ (textChars v).getLast? = some ':'
    · rw [proceed_plainValue_eq_none hp hm hread, plainRead?, if_pos hread]
      rfl
    · rw [proceed_of_cons (hcons ts), next_plainValue hp hv hm hr hread, plainRead?, if_neg hread,
        Option.bind_some, run_succ, advance_of_startsEntry hr]
      rfl
  · rw [if_neg hp]
    by_cases hw : styleOf v = .literal ∧ v.all isWhiteSpace = true
    · obtain ⟨m', hm', hnext⟩ := next_blankValue (m := m) hw.1 hw.2 hr
      refine ⟨m', hm', ?_⟩
      intro ts
      rw [if_pos hw, proceed_of_cons (hcons ts), hnext, Option.bind_some, run_succ,
        advance_of_startsEntry hr]
      rfl
    · refine ⟨(m.after (textChars v)).newLine 1, rfl, ?_⟩
      intro ts
      rw [if_neg hw, proceed_of_cons (hcons ts),
        next_quoted (isQuoted_of_not hp hw) (fun h => absurd h Bool.false_ne_true) (by simp)]
      cases quotedRead? v with
      | none => rfl
      | some text =>
        rw [Option.map_some, Option.bind_some, run_succ]
        show ((outside true false none _ _ ('\n' :: rest)).advance).bind _ = _
        rw [advance_newLine hr]
        rfl

end

end Scanner

/-! ## Values -/

/-- What is read of a value: a scalar, or a row of plain scalars. -/
inductive Node where
  | scalar (plain : Bool) (text : List Char)
  | row (items : List (List Char))

/-- The tokens of a value; a plain scalar without text has none. -/
def Node.tokens : Node → List Token
  | .scalar plain text => if plain = true ∧ text = [] then [] else [.scalar plain text]
  | .row items => rowTokens items

/-- What is read of what is written for a value. -/
def nodeRead? : Value → Option Node
  | .bool b => some (.scalar true (Value.word b).toList)
  | .int i => some (.scalar true i.chars)
  | .float x => some (.scalar true (numberLayout.chars x))
  | .text s => (textRead? s.toList).map fun r => .scalar r.1 r.2
  | .ints is => some (.row (is.map Whole.chars))
  | .floats xs => some (.row (xs.map numberLayout.chars))

theorem styleOf_of_textChars_eq_nil {v : List Char} (h : textChars v = []) :
    styleOf v = .plain := by
  cases hstyle : styleOf v with
  | plain => rfl
  | single =>
    rw [textChars_of_single hstyle] at h
    cases h
  | double =>
    rw [textChars_of_double hstyle] at h
    cases h
  | literal =>
    cases hw : v.all isWhiteSpace with
    | true =>
      rw [textChars_of_literal_blank hstyle hw] at h
      cases h
    | false =>
      rw [textChars_of_literal hstyle hw] at h
      cases h

/-- A text that is cut to nothing is read as a plain scalar without text. -/
theorem textRead?_of_nil {v : List Char} (h : textChars v = []) :
    textRead? v = some (true, []) := by
  rw [textRead?, if_pos (styleOf_of_textChars_eq_nil h), h]
  rfl

theorem ne_of_textRead? {v : List Char} {r : Bool × List Char} (h : textRead? v = some r)
    (hv : textChars v ≠ []) : r ≠ (true, []) := by
  rintro rfl
  unfold textRead? at h
  split at h
  · obtain ⟨u, hu, heq⟩ := Option.map_eq_some_iff.1 h
    unfold plainRead? at hu
    split at hu <;> cases hu
    exact hv (Prod.mk.inj heq).2
  · split at h
    · cases h
    · obtain ⟨u, -, heq⟩ := Option.map_eq_some_iff.1 h
      cases (Prod.mk.inj heq).1

theorem IsWord.tokens_scalar {u : List Char} (hu : IsWord u) :
    (Node.scalar true u).tokens = [.scalar true u] := if_neg fun h => hu.ne_nil h.2

namespace Scanner

section

variable {m : Mark} {rest : List Char}

/-- From a colon on a value takes no more tokens than characters. -/
def ReadsValue (m : Mark) (rest : List Char) (v : Value) : Prop :=
  ∀ fuel, ∃ m' fuel', m'.column = 0 ∧ fuel ≤ fuel' ∧ ∀ ts,
    ((atValue m ts (' ' :: (valueChars v ++ '\n' :: rest))).advance).bind
        (proceed (fuel + (valueChars v).length)) =
      (nodeRead? v).bind fun n => proceed fuel' (atEntry true m' (n.tokens.reverse ++ ts) rest)

theorem readsValue_word {v : Value} (hu : IsWord (valueChars v))
    (hv : nodeRead? v = some (.scalar true (valueChars v))) (hr : startsEntry rest = true) :
    ReadsValue m rest v := by
  intro fuel
  obtain ⟨c, u, hcons⟩ := List.exists_cons_of_ne_nil hu.ne_nil
  have hfuel : fuel + (valueChars v).length = fuel + u.length + 1 := by
    rw [hcons]
    rfl
  refine ⟨((m.forward 1).forward (valueChars v).length).newLine 1, fuel + u.length, rfl,
    Nat.le_add_right .., ?_⟩
  intro ts
  have hrest : (atValue (m.forward 1) ts (valueChars v ++ '\n' :: rest)).cursor.rest =
      c :: (u ++ '\n' :: rest) := by
    rw [hcons]
    rfl
  rw [advance_blank (hu.startsEntry_append _), Option.bind_some, proceed_of_cons hrest,
    next_wordValue hu (Nat.succ_ne_zero _) hr, hfuel, Option.bind_some, run_succ,
    advance_of_startsEntry hr, hv]
  simp [hu.tokens_scalar]

theorem readsValue_row {v : Value} {us : List (List Char)} (hus : ∀ u ∈ us, IsWord u)
    (hchars : valueChars v = rowChars us) (hv : nodeRead? v = some (.row us))
    (hr : startsEntry rest = true) : ReadsValue m rest v := by
  intro fuel
  obtain ⟨spare, hspare⟩ := Nat.exists_eq_add_of_le (length_rowTokens_le hus)
  have hfuel : fuel + (rowChars us).length = fuel + spare + (rowTokens us).length := by omega
  obtain ⟨m', hm', hrow⟩ := proceed_row (m := m.forward 1) hus hr (fuel + spare)
  refine ⟨m', fuel + spare, hm', Nat.le_add_right .., ?_⟩
  intro ts
  rw [hchars, hfuel, advance_blank rfl, Option.bind_some, hrow, hv]
  rfl

theorem readsValue_text (t : String) (hr : startsEntry rest = true) :
    ReadsValue m rest (.text t) := by
  intro fuel
  show ∃ m' fuel', m'.column = 0 ∧ fuel ≤ fuel' ∧ ∀ ts,
    ((atValue m ts (' ' :: (textChars t.toList ++ '\n' :: rest))).advance).bind
        (proceed (fuel + (textChars t.toList).length)) =
      ((textRead? t.toList).map fun r => Node.scalar r.1 r.2).bind fun n =>
        proceed fuel' (atEntry true m' (n.tokens.reverse ++ ts) rest)
  by_cases ht : textChars t.toList = []
  · -- a text that was cut to nothing has no token and takes no step
    refine ⟨(m.forward 1).newLine 1, fuel, rfl, Nat.le_refl _, ?_⟩
    intro ts
    rw [ht, textRead?_of_nil ht, List.nil_append, advance_blank_newLine hr]
    rfl
  · obtain ⟨c, u, hcons⟩ := List.exists_cons_of_ne_nil ht
    have hfuel : fuel + (textChars t.toList).length = fuel + u.length + 1 := by
      rw [hcons]
      rfl
    obtain ⟨m', hm', htext⟩ := proceed_text (m := m.forward 1) ht (Nat.succ_ne_zero _) hr
      (fuel + u.length)
    refine ⟨m', fuel + u.length, hm', Nat.le_add_right .., ?_⟩
    intro ts
    rw [advance_blank (startsEntry_textChars ht _), Option.bind_some, hfuel, htext]
    cases hread : textRead? t.toList with
    | none => rfl
    | some r =>
      have hne : ¬(r.1 = true ∧ r.2 = []) := fun h => ne_of_textRead? hread ht (Prod.ext h.1 h.2)
      simp [Node.tokens, hne]

theorem readsValue (v : Value) (hr : startsEntry rest = true) : ReadsValue m rest v := by
  cases v with
  | bool b => exact readsValue_word (isWord_word b) rfl hr
  | int i => exact readsValue_word (isWord_chars i) rfl hr
  | float x => exact readsValue_word (isWord_numberChars x) rfl hr
  | text t => exact readsValue_text t hr
  | ints is =>
    exact readsValue_row (List.forall_mem_map.2 fun i _ => isWord_chars i) rfl rfl hr
  | floats xs =>
    exact readsValue_row (List.forall_mem_map.2 fun x _ => isWord_numberChars x) rfl rfl hr

end

end Scanner

/-! ## Lines -/

/-- What is read of an entry: its key and its value. -/
def entryRead? (e : String × Value) : Option ((Bool × List Char) × Node) :=
  (keyRead? e.1.toList).bind fun k => (nodeRead? e.2).map fun v => (k, v)

/-- The tokens of an entry. -/
def entryTokens (r : (Bool × List Char) × Node) : List Token :=
  .key :: .scalar r.1.1 r.1.2 :: .value :: r.2.tokens

namespace Scanner

section

variable {m : Mark} {e : String × Value} {l : List (String × Value)} {rest : List Char}

/-- The line of an entry takes no more tokens than characters. -/
theorem proceed_line (opened : Bool) (hk : textChars e.1.toList ≠ []) (hm : m.column = 0)
    (hr : startsEntry rest = true) (fuel : Nat) :
    ∃ m' fuel', m'.column = 0 ∧ fuel ≤ fuel' ∧ ∀ ts,
      proceed (fuel + (entryChars e).length) (atEntry opened m ts (entryChars e ++ rest)) =
        (entryRead? e).bind fun r =>
          proceed fuel' (atEntry true m'
            ((entryTokens r).reverse ++ (if opened then ts else .blockMapping :: ts)) rest) := by
  have hline : entryChars e ++ rest =
      textChars e.1.toList ++ ':' :: ' ' :: (valueChars e.2 ++ '\n' :: rest) := by
    simp [entryChars]
  have hfuel : fuel + (entryChars e).length =
      fuel + ((textChars e.1.toList).length + 1) + (valueChars e.2).length + 2 := by
    simp only [entryChars, List.length_append, List.length_cons, List.length_nil]
    omega
  obtain ⟨m', fuel', hm', hfuel', hvalue⟩ := readsValue e.2 hr
    (fuel + ((textChars e.1.toList).length + 1))
  refine ⟨m', fuel', hm', by omega, ?_⟩
  intro ts
  rw [hline, hfuel, proceed_key hk hm, entryRead?, Option.bind_assoc]
  congr 1
  funext k
  rw [hvalue]
  cases nodeRead? e.2 with
  | none => rfl
  | some v => simp [entryTokens]

theorem startsEntry_lines (hl : ∀ e ∈ l, textChars e.1.toList ≠ [])
    (hr : startsEntry rest = true) : startsEntry (l.flatMap entryChars ++ rest) = true := by
  cases l with
  | nil => exact hr
  | cons e l =>
    rw [List.flatMap_cons, entryChars, List.append_assoc, List.append_assoc]
    exact startsEntry_textChars (hl e (List.mem_cons_self ..)) _

/-- The tokens of the lines stand one after the other; the first line opens the block. -/
theorem proceed_lines (opened : Bool) (hl : ∀ e ∈ l, textChars e.1.toList ≠ [])
    (hm : m.column = 0) (hr : startsEntry rest = true) (fuel : Nat) :
    ∃ m' fuel', m'.column = 0 ∧ fuel ≤ fuel' ∧ ∀ ts,
      proceed (fuel + (l.flatMap entryChars).length)
          (atEntry opened m ts (l.flatMap entryChars ++ rest)) =
        (l.mapM entryRead?).bind fun rs =>
          proceed fuel' (atEntry (opened || !l.isEmpty) m'
            ((rs.flatMap entryTokens).reverse ++
              if opened || l.isEmpty then ts else .blockMapping :: ts) rest) := by
  induction l generalizing opened m fuel with
  | nil => exact ⟨m, fuel, hm, Nat.le_refl _, fun ts => by simp⟩
  | cons e l ih =>
    rw [List.forall_mem_cons] at hl
    obtain ⟨m₁, fuel₁, hm₁, hfuel₁, hline⟩ := proceed_line opened hl.1 hm
      (startsEntry_lines hl.2 hr) (fuel + (l.flatMap entryChars).length)
    -- a line that takes fewer steps than it has characters leaves them to the others
    obtain ⟨m₂, fuel₂, hm₂, hfuel₂, hlines⟩ :=
      ih true hl.2 hm₁ (fuel₁ - (l.flatMap entryChars).length)
    have henough : fuel + ((e :: l).flatMap entryChars).length =
        fuel + (l.flatMap entryChars).length + (entryChars e).length := by
      rw [List.flatMap_cons, List.length_append]
      omega
    rw [Nat.sub_add_cancel (by omega)] at hlines
    refine ⟨m₂, fuel₂, hm₂, by omega, ?_⟩
    intro ts
    rw [henough, List.flatMap_cons, List.append_assoc, hline, List.mapM_cons]
    cases entryRead? e with
    | none => rfl
    | some r =>
      simp only [Option.bind_some, hlines, bind, pure, Option.bind_assoc]
      cases l.mapM entryRead? <;> simp

end

end Scanner

end Keepsake.Yaml
