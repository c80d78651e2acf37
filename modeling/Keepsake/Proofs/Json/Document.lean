import Keepsake.Json.Reader
import Keepsake.Proofs.Json.Literal
import Keepsake.Proofs.Json.Text
import Keepsake.Proofs.Rows
/-!
# Snapshots read back from JSON

A written snapshot is cut into the tokens that it was made of: blanks are passed over, and no number
and no word runs into what follows it. From these tokens every entry is read for itself, so reading
gives back the snapshot with each value reread (`readSnapshot_openSnapshot`).
-/

namespace Keepsake.Json

/-! ## Tokens one by one -/

theorem tokens_blank {c : Char} (h : isBlank c = true) (cs : List Char) :
    tokens (c :: cs) = tokens cs := by
  rw [tokens, if_pos h]

theorem tokens_newLine (depth : Nat) (cs : List Char) :
    tokens (newLine depth ++ cs) = tokens cs := by
  unfold newLine
  rw [List.cons_append, tokens_blank (by decide)]
  generalize 2 * depth = n
  induction n with
  | zero => rfl
  | succ n ih => rw [List.replicate_succ, List.cons_append, tokens_blank (by decide), ih]

theorem tokens_punctuation {c : Char} {t : Token} (hblank : isBlank c = false) (hquote : c ≠ '"')
    (h : Token.ofPunctuation? c = some t) (cs : List Char) :
    tokens (c :: cs) = (tokens cs).map (t :: ·) := by
  rw [tokens, if_neg (by simp [hblank]), if_neg hquote, h]

theorem tokens_comma (cs : List Char) : tokens (',' :: cs) = (tokens cs).map (.comma :: ·) :=
  tokens_punctuation (by decide) (by decide) rfl cs

theorem tokens_colon (cs : List Char) : tokens (':' :: cs) = (tokens cs).map (.colon :: ·) :=
  tokens_punctuation (by decide) (by decide) rfl cs

theorem tokens_stringChars (text cs : List Char) :
    tokens (stringChars text ++ cs) = (tokens cs).map (.text text :: ·) := by
  have hread : readString (escape text ++ '"' :: cs) = some (text, cs) := readString_escape text cs
  have hsplit : stringChars text ++ cs = '"' :: (escape text ++ '"' :: cs) := by
    simp [stringChars]
  rw [hsplit, tokens, if_neg (by decide), if_pos rfl]
  split
  · next h =>
    rw [hread] at h
    cases h
  · next text' rest h =>
    rw [hread] at h
    cases h
    rfl

/-- A digit or a sign begins a number and nothing else. -/
theorem tokens_lead {c : Char} (h : c = '-' ∨ c.isDigit = true) (cs : List Char) :
    tokens (c :: cs) = (tokens (cs.dropWhile isNumberChar)).map
      (.number (c :: cs.takeWhile isNumberChar) :: ·) := by
  have hother : isBlank c = false ∧ c ≠ '"' ∧ Token.ofPunctuation? c = none := by
    rcases h with rfl | h
    · decide
    · have hne : ∀ d : Char, d.isDigit = false → c ≠ d := by
        rintro d hd rfl
        rw [h] at hd
        cases hd
      refine ⟨?_, hne '"' (by decide), ?_⟩
      · simp [isBlank, hne ' ' (by decide), hne '\n' (by decide), hne '\t' (by decide),
          hne '\r' (by decide)]
      · exact Token.ofPunctuation?.eq_7 c (hne _ (by decide)) (hne _ (by decide))
          (hne _ (by decide)) (hne _ (by decide)) (hne _ (by decide)) (hne _ (by decide))
  rw [tokens, if_neg (by simp [hother.1]), if_neg hother.2.1, hother.2.2]
  exact if_pos h

theorem tokens_number {n cs : List Char} (h : IsNumberText n) (hcs : StopsAt isNumberChar cs) :
    tokens (n ++ cs) = (tokens cs).map (.number n :: ·) := by
  obtain ⟨c, rest, rfl, hc⟩ := h.lead
  obtain ⟨htake, hdrop⟩ := takeWhile_append_of_stopsAt
    (fun d hd => h.chars d (List.mem_cons_of_mem _ hd)) hcs
  rw [List.cons_append, tokens_lead hc, htake, hdrop]

theorem tokens_boolChars (b : Bool) {cs : List Char} (hcs : StopsAt Char.isAlpha cs) :
    tokens (boolChars b ++ cs) = (tokens cs).map (.word (boolChars b) :: ·) := by
  obtain ⟨c, rest, hb, hall, hlead⟩ : ∃ c rest, boolChars b = c :: rest ∧
      rest.all Char.isAlpha = true ∧ isBlank c = false ∧ c ≠ '"' ∧
        Token.ofPunctuation? c = none ∧ ¬(c = '-' ∨ c.isDigit = true) ∧ c.isAlpha = true := by
    cases b with
    | true => exact ⟨'t', ['r', 'u', 'e'], rfl, by decide, by decide⟩
    | false => exact ⟨'f', ['a', 'l', 's', 'e'], rfl, by decide, by decide⟩
  obtain ⟨hblank, hquote, hpunctuation, hnumber, halpha⟩ := hlead
  obtain ⟨htake, hdrop⟩ := takeWhile_append_of_stopsAt (List.all_eq_true.1 hall) hcs
  rw [hb, List.cons_append, tokens, if_neg (by simp [hblank]), if_neg hquote, hpunctuation]
  simp only [if_neg hnumber, if_pos halpha, htake, hdrop]

/-! ## Texts that spell tokens -/

/-- A text that no number and no word before it runs into. -/
def EndsValue (cs : List Char) : Prop := StopsAt isNumberChar cs ∧ StopsAt Char.isAlpha cs

theorem endsValue_cons {c : Char} (h : isNumberChar c = false ∧ c.isAlpha = false)
    (cs : List Char) : EndsValue (c :: cs) :=
  ⟨stopsAt_cons h.1, stopsAt_cons h.2⟩

theorem endsValue_newLine (depth : Nat) (cs : List Char) : EndsValue (newLine depth ++ cs) :=
  endsValue_cons (by decide) _

/-- A text that is cut into certain tokens, if what follows lets its last one end. -/
def Spells (text : List Char) (ts : List Token) : Prop :=
  ∀ cs, EndsValue cs → tokens (text ++ cs) = (tokens cs).map (ts ++ ·)

/-- Rows of tokens with commas between them. -/
def commas : List (List Token) → List Token
  | [] => []
  | ts :: rows => ts ++ rows.flatMap (.comma :: ·)

theorem spells_number {n : List Char} (h : IsNumberText n) : Spells n [.number n] := fun _ hcs =>
  tokens_number h hcs.1

theorem spells_boolChars (b : Bool) : Spells (boolChars b) [.word (boolChars b)] := fun _ hcs =>
  tokens_boolChars b hcs.2

theorem spells_stringChars (text : List Char) : Spells (stringChars text) [.text text] :=
  fun cs _ => tokens_stringChars text cs

/-- Lines with commas between them spell what each of them spells. -/
theorem spells_onLines {α : Type} {text : α → List Char} {row : α → List Token} (depth : Nat)
    {items : List α} (hne : items ≠ []) (h : ∀ a ∈ items, Spells (text a) (row a)) :
    Spells (onLines depth (items.map text)) (commas (items.map row)) := by
  intro cs hcs
  induction items with
  | nil => exact absurd rfl hne
  | cons a rest ih =>
    rw [List.forall_mem_cons] at h
    cases rest with
    | nil =>
      show tokens (newLine depth ++ text a ++ cs) = _
      rw [List.append_assoc, tokens_newLine, h.1 cs hcs]
      simp [commas]
    | cons b rest =>
      -- behind each item but the last stands a comma, which lets its last token end
      have hsplit : onLines depth ((a :: b :: rest).map text) ++ cs
          = newLine depth ++ (text a ++ (',' :: (onLines depth ((b :: rest).map text) ++ cs))) := by
        simp [onLines]
      rw [hsplit, tokens_newLine, h.1 _ (endsValue_cons (by decide) _), tokens_comma,
        ih (List.cons_ne_nil b rest) h.2, Option.map_map, Option.map_map]
      congr 1
      funext ts
      simp [commas]

/-! ## Values -/

/-- The tokens of an array of numbers. -/
def arrayTokens (ns : List (List Char)) : List Token :=
  .openBracket :: (commas (ns.map fun n => [.number n]) ++ [.closeBracket])

/-- The tokens of a value. -/
def valueTokens : Value → List Token
  | .bool b => [.word (boolChars b)]
  | .int i => [.number i.chars]
  | .float x => [.number (floatChars x)]
  | .text s => [.text s.toList]
  | .ints is => arrayTokens (is.map Whole.chars)
  | .floats xs => arrayTokens (xs.map floatChars)

theorem spells_openArray (depth : Nat) {ns : List (List Char)} (h : ∀ n ∈ ns, IsNumberText n) :
    Spells (openArray depth ns) (arrayTokens ns) := by
  intro cs _
  have hopen : ∀ cs, tokens ('[' :: cs) = (tokens cs).map (.openBracket :: ·) :=
    tokens_punctuation (by decide) (by decide) rfl
  have hclose : ∀ cs, tokens (']' :: cs) = (tokens cs).map (.closeBracket :: ·) :=
    tokens_punctuation (by decide) (by decide) rfl
  by_cases hne : ns = []
  · subst hne
    show tokens ('[' :: ']' :: cs) = _
    rw [hopen, hclose, Option.map_map]
    rfl
  · have hsplit : openArray depth ns ++ cs
        = '[' :: (onLines (depth + 1) ns ++ (newLine depth ++ ']' :: cs)) := by
      simp [openArray, hne]
    have hitems := spells_onLines (depth + 1) hne (fun n hn => spells_number (h n hn))
      (newLine depth ++ ']' :: cs) (endsValue_newLine _ _)
    rw [List.map_id'] at hitems
    rw [hsplit, hopen, hitems, tokens_newLine, hclose, Option.map_map, Option.map_map]
    congr 1
    funext ts
    simp [arrayTokens]

theorem spells_openValue {v : Value} (hv : v.isFinite = true) :
    Spells (openValue v) (valueTokens v) := by
  cases v with
  | bool b => exact spells_boolChars b
  | int i => exact spells_number (isNumberText_chars i)
  | float x => exact spells_number (isNumberText_floatChars hv)
  | text s => exact spells_stringChars s.toList
  | ints is =>
    refine spells_openArray 1 fun n hn => ?_
    obtain ⟨i, -, rfl⟩ := List.mem_map.1 hn
    exact isNumberText_chars i
  | floats xs =>
    refine spells_openArray 1 fun n hn => ?_
    obtain ⟨x, hx, rfl⟩ := List.mem_map.1 hn
    exact isNumberText_floatChars (List.all_eq_true.1 hv x hx)

/-! ## Entries -/

/-- The tokens of an entry. -/
def entryTokens (e : String × Value) : List Token :=
  .text e.1.toList :: .colon :: valueTokens e.2

theorem spells_openEntry {e : String × Value} (he : e.2.isFinite = true) :
    Spells (openEntry e) (entryTokens e) := by
  intro cs hcs
  have hsplit : openEntry e ++ cs
      = stringChars e.1.toList ++ (':' :: ' ' :: (openValue e.2 ++ cs)) := by
    simp [openEntry]
  rw [hsplit, tokens_stringChars, tokens_colon, tokens_blank (by decide),
    spells_openValue he cs hcs, Option.map_map, Option.map_map]
  rfl

theorem tokens_openSnapshot {s : Snapshot} (h : ∀ e ∈ s.entries, e.2.isFinite = true) :
    tokens (openSnapshot s)
      = some (.openBrace :: (commas (s.entries.map entryTokens) ++ [.closeBrace])) := by
  have hopen : ∀ cs, tokens ('\x7b' :: cs) = (tokens cs).map (.openBrace :: ·) :=
    tokens_punctuation (by decide) (by decide) rfl
  have hclose : tokens ['\n', '\x7d', '\n'] = some [.closeBrace] := by decide +kernel
  unfold openSnapshot
  by_cases hne : s.entries = []
  · rw [hne]
    decide +kernel
  · rw [if_neg (by simpa using hne), hopen,
      spells_onLines 1 hne (fun e he => spells_openEntry (h e he)) _
        (endsValue_cons (by decide) _), hclose]
    rfl

/-! ## Reading values -/

/-- A value as it is read back from its own text. -/
def reread : Value → Option Value
  | .float x => (Number.read (floatChars x)).map Value.ofNumber
  | .floats xs => (xs.mapM fun x => Number.read (floatChars x)).map Value.ofNumbers
  | v => some v

theorem readMoreItems_commas (ns : List (List Char)) (rest : List Token) :
    readMoreItems (ns.flatMap (fun n => [.comma, .number n]) ++ .closeBracket :: rest)
      = (ns.mapM Number.read).map (·, rest) := by
  induction ns with
  | nil => rfl
  | cons n ns ih =>
    have hsplit : (n :: ns).flatMap (fun n => [.comma, .number n]) ++ .closeBracket :: rest
        = .comma :: .number n
          :: (ns.flatMap (fun n => [.comma, .number n]) ++ .closeBracket :: rest) := rfl
    rw [hsplit, readMoreItems, ih, mapM_cons_option]
    cases Number.read n with
    | none => rfl
    | some x => cases ns.mapM Number.read <;> rfl

/-- The numbers of an array are each read for themselves. -/
theorem readValue_arrayTokens (ns : List (List Char)) (rest : List Token) :
    readValue (arrayTokens ns ++ rest)
      = (ns.mapM Number.read).map fun xs => (Value.ofNumbers xs, rest) := by
  cases ns with
  | nil => rfl
  | cons n ns =>
    have hsplit : arrayTokens (n :: ns) ++ rest
        = .openBracket :: .number n
          :: (ns.flatMap (fun n => [.comma, .number n]) ++ .closeBracket :: rest) := by
      simp [arrayTokens, commas, List.flatMap_map]
    rw [hsplit, readValue, readItems, readMoreItems_commas, mapM_cons_option]
    cases Number.read n with
    | none => rfl
    | some x => cases ns.mapM Number.read <;> rfl

theorem readValue_valueTokens (v : Value) (rest : List Token) :
    readValue (valueTokens v ++ rest) = (reread v).map (·, rest) := by
  cases v with
  | bool b => cases b <;> rfl
  | int i =>
    show (Number.read i.chars).map (Value.ofNumber ·, rest) = _
    rw [Number.read_chars]
    rfl
  | float x =>
    show (Number.read (floatChars x)).map (Value.ofNumber ·, rest) = _
    rw [reread, Option.map_map]
    rfl
  | text s =>
    show some (Value.text (String.ofList s.toList), rest) = some (Value.text s, rest)
    rw [String.ofList_toList]
  | ints is =>
    have hitems : (is.map Whole.chars).mapM Number.read = some (is.map Keepsake.Number.whole) := by
      rw [List.mapM_map]
      exact mapM_eq_map fun i _ => Number.read_chars i
    rw [valueTokens, readValue_arrayTokens, hitems]
    show some (Value.ofNumbers _, rest) = some (Value.ints is, rest)
    rw [Value.ofNumbers_ints]
  | floats xs =>
    rw [valueTokens, readValue_arrayTokens, reread, List.mapM_map, Option.map_map]
    rfl

/-! ## Reading snapshots -/

/-- An entry as it is read back from its own text. -/
def rereadEntry (e : String × Value) : Option (String × Value) := (reread e.2).map (e.1, ·)

section Entries

variable {k : List Char} {ts rest : List Token} {v : Value}

theorem readEntries_of_none (h : readValue ts = none) :
    readEntries (.text k :: .colon :: ts) = none := by
  rw [readEntries]
  split
  · next heq => cases h.symm.trans heq
  · next heq => cases h.symm.trans heq
  · rfl

theorem readEntries_of_last (h : readValue ts = some (v, [.closeBrace])) :
    readEntries (.text k :: .colon :: ts) = some [(String.ofList k, v)] := by
  rw [readEntries]
  split
  · next heq =>
    cases h.symm.trans heq
    rfl
  · next heq => cases h.symm.trans heq
  · next hlast _ => exact absurd h (hlast v)

theorem readEntries_of_more (h : readValue ts = some (v, .comma :: rest)) :
    readEntries (.text k :: .colon :: ts)
      = (readEntries rest).map ((String.ofList k, v) :: ·) := by
  rw [readEntries]
  split
  · next heq => cases h.symm.trans heq
  · next heq =>
    cases h.symm.trans heq
    rfl
  · next hmore => exact absurd h (hmore v rest)

end Entries

/-- The entries are each read for themselves. -/
theorem readEntries_commas {es : List (String × Value)} (hne : es ≠ []) :
    readEntries (commas (es.map entryTokens) ++ [.closeBrace]) = es.mapM rereadEntry := by
  induction es with
  | nil => exact absurd rfl hne
  | cons e rest ih =>
    obtain ⟨k, v⟩ := e
    have hsplit : commas (((k, v) :: rest).map entryTokens) ++ [.closeBrace]
        = .text k.toList :: .colon :: (valueTokens v
          ++ ((rest.map entryTokens).flatMap (.comma :: ·) ++ [.closeBrace])) := by
      simp [commas, entryTokens]
    have hread := readValue_valueTokens v
      ((rest.map entryTokens).flatMap (.comma :: ·) ++ [.closeBrace])
    rw [hsplit, mapM_cons_option, rereadEntry]
    cases hv : reread v with
    | none =>
      rw [hv] at hread
      rw [readEntries_of_none hread]
      rfl
    | some v' =>
      rw [hv] at hread
      cases rest with
      | nil =>
        rw [readEntries_of_last hread, String.ofList_toList]
        rfl
      | cons e' rest =>
        rw [readEntries_of_more hread, String.ofList_toList]
        have hmore := ih (List.cons_ne_nil e' rest)
        rw [List.map_cons, commas] at hmore
        rw [← hmore]
        rfl

/-- A snapshot is read back with each of its values reread, if all of them are readable. -/
theorem readSnapshot_openSnapshot {s : Snapshot} (h : ∀ e ∈ s.entries, e.2.isFinite = true) :
    readSnapshot (openSnapshot s) = (s.entries.mapM rereadEntry).map NameMap.ofList := by
  unfold readSnapshot
  rw [tokens_openSnapshot h]
  cases hs : s.entries with
  | nil => rfl
  | cons e rest =>
    rw [← readEntries_commas (List.cons_ne_nil e rest)]
    rfl

end Keepsake.Json
