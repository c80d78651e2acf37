import Keepsake.Codec
import Keepsake.Proofs.Cells
import Keepsake.Proofs.Encoding
import Keepsake.Proofs.Yaml.Allowed
import Keepsake.Proofs.Yaml.Document
/-!
# Which texts a YAML file keeps

Every snapshot of texts is written, and what is read of it is known entry by entry. A text is lost
where white space is cut from it (`isUncut`). A key is lost too where it is too long to be one, or
where a separator breaks its line (`KeyKept`); and a text in a JSON string where blanks or the
marker of a document stand behind a separator (`TextKept`). The file is read as the snapshot that
was written exactly if no key and no text is lost: a key that lost its end ends in no white space,
so no other key stands in for it.
-/

namespace Keepsake

namespace Yaml

/-- Whether nothing is cut from what is written for a text. -/
def isUncut (cs : List Char) : Bool :=
  match styleOf cs with
  | .plain => !cs.getLast?.any isWhiteSpace
  | .literal => !cs.all isWhiteSpace
  | .single => true
  | .double => true

/-- A text that is read back as a key. -/
structure KeyKept (cs : List Char) : Prop where
  uncut : isUncut cs = true
  /-- what is written is short enough to be a key -/
  near : (textChars cs).length ≤ Candidate.reach
  /-- what is written stands on one line -/
  oneLine : styleOf cs = .double ∨ cs.any isSeparator = false

/-- A text that is read back as a value. -/
structure TextKept (cs : List Char) : Prop where
  uncut : isUncut cs = true
  /-- in a JSON string no separator stands before a blank or a marker -/
  lines : styleOf cs = .literal → hasPair isSeparator isSpace cs = false ∧ hasMarkerLine cs = false

instance (cs : List Char) : Decidable (KeyKept cs) :=
  decidable_of_iff (isUncut cs = true ∧ (textChars cs).length ≤ Candidate.reach ∧
      (styleOf cs = .double ∨ cs.any isSeparator = false))
    ⟨fun h => ⟨h.1, h.2.1, h.2.2⟩, fun h => ⟨h.uncut, h.near, h.oneLine⟩⟩

instance (cs : List Char) : Decidable (TextKept cs) :=
  decidable_of_iff (isUncut cs = true ∧
      (styleOf cs = .literal → hasPair isSeparator isSpace cs = false ∧ hasMarkerLine cs = false))
    ⟨fun h => ⟨h.1, h.2⟩, fun h => ⟨h.uncut, h.lines⟩⟩

section

variable {cs t : List Char} {p : Bool}

/-! ## Breaks in what is written -/

theorem any_isBreak_singleBody (b : Bool) (cs : List Char) :
    (singleBody b cs).any isBreak = cs.any isBreak := by
  have hindent : indentation.any isBreak = false := by decide
  have hquote : isBreak '\'' = false := by decide
  induction cs generalizing b with
  | nil => cases b <;> rfl
  | cons c cs ih =>
    unfold singleBody
    split
    · next hb => simp [hb]
    · next hb => cases b <;> by_cases hq : c = '\'' <;> simp [hq, hquote, hindent, ih, hb]

theorem any_isBreak_eq_any_isSeparator (hp : cs.all isPrintable = true) (hn : '\n' ∉ cs) :
    cs.any isBreak = cs.any isSeparator := by
  induction cs with
  | nil => rfl
  | cons c cs ih =>
    rw [List.all_cons, Bool.and_eq_true] at hp
    rw [List.mem_cons, not_or] at hn
    rw [List.any_cons, List.any_cons, ih hp.2 hn.2, isSeparator_eq_isBreak hp.1 (Ne.symm hn.1)]

theorem any_isBreak_escape (hp : cs.all isPrintable = true) :
    (Json.escape cs).any isBreak = cs.any isSeparator := by
  have hslash : isBreak '\\' = false := by decide
  induction cs with
  | nil => rfl
  | cons c cs ih =>
    rw [List.all_cons, Bool.and_eq_true] at hp
    have hcons : Json.escape (c :: cs) = Json.escapeChar c ++ Json.escape cs := rfl
    rw [hcons, List.any_append, ih hp.2, List.any_cons]
    obtain ⟨l, hl, -, hb, hsep, -⟩ | ⟨hl, -, -, hn⟩ := escapeChar_of_isPrintable hp.1
    · simp [hl, hslash, hb, hsep]
    · simp [hl, isSeparator_eq_isBreak hp.1 hn]

/-- What is written takes more than one line exactly if a separator stands for itself. -/
theorem any_isBreak_textChars_eq_false_iff
    (hw : styleOf cs = .literal → cs.all isWhiteSpace = false) :
    (textChars cs).any isBreak = false ↔ styleOf cs = .double ∨ cs.any isSeparator = false := by
  have hquote : isBreak '\'' = false ∧ isBreak '"' = false := by decide
  cases h : styleOf cs with
  | plain =>
    have hp := (allowsPlain_of_styleOf h).1
    simp only [allowsPlain, Bool.and_eq_true, Bool.not_eq_true'] at hp
    obtain ⟨u, -, hpart⟩ := plainPart_textChars h
    rw [← any_isBreak_eq_any_isSeparator hp.1.1.1.1 (newline_not_mem_of_styleOf (Or.inl h))]
    simp [hpart.noBreak, hp.1.1.1.2]
  | single =>
    have hs := allowsSingle_of_styleOf h
    simp only [allowsSingle, Bool.and_eq_true] at hs
    rw [textChars_of_single h,
      ← any_isBreak_eq_any_isSeparator hs.1.1 (newline_not_mem_of_styleOf (Or.inr h))]
    simp [hquote.1, any_isBreak_singleBody]
  | double =>
    rw [textChars_of_double h]
    simp [hquote.2, List.any_flatMap, any_isBreak_doubleChar]
  | literal =>
    have hl := (allowsLiteral_of_styleOf h).2
    simp only [allowsLiteral, Bool.and_eq_true] at hl
    rw [textChars_of_literal h (hw h), Json.stringChars]
    simp [hquote.2, any_isBreak_escape hl.1.1]

/-! ## Keys -/

theorem textChars_eq_self_iff (h : styleOf cs = .plain) :
    textChars cs = cs ↔ isUncut cs = true := by
  rw [textChars_of_plain h, trimEnd_eq_self_iff, isUncut, h]
  cases cs.getLast? <;> simp

theorem all_isWhiteSpace_of_isUncut (h : isUncut cs = true) (hl : styleOf cs = .literal) :
    cs.all isWhiteSpace = false := by
  simpa [isUncut, hl] using h

/-- On one line nothing is lost between quotes. -/
theorem quotedRead?_of_oneLine (h : styleOf cs = .double ∨ cs.any isSeparator = false) :
    quotedRead? cs = some cs := by
  rcases h with h | h
  · rw [quotedRead?, if_neg (by simp [h])]
  have hpair : hasPair isSeparator isSpace cs = false ∧ hasMarkerLine cs = false := by
    induction cs with
    | nil => exact ⟨rfl, rfl⟩
    | cons c cs ih =>
      rw [List.any_cons, Bool.or_eq_false_iff] at h
      rw [hasPair_cons, hasMarkerLine, h.1]
      simpa using ih h.2
  unfold quotedRead?
  split
  · rw [if_neg (by simp [hpair.2]), (joinLines_eq_self_iff false cs).2 ⟨rfl, hpair.1⟩]
  · rfl

/-- A key that is read is near its colon and on one line. -/
theorem of_keyRead? (h : keyRead? cs = some (p, t)) :
    (textChars cs).length ≤ Candidate.reach ∧ (textChars cs).any isBreak = false := by
  unfold keyRead? at h
  split at h
  · cases h
  · next hline =>
    rw [not_or, Bool.not_eq_true, Nat.not_lt] at hline
    exact hline.symm

theorem keyRead?_of_plain (h : keyRead? cs = some (p, t)) (hp : styleOf cs = .plain) :
    t = textChars cs := by
  rw [keyRead?, if_neg (by simp [of_keyRead? h]), keyScalar?, if_pos hp] at h
  cases h
  rfl

/-- A key that is not plain is read back, if it is read at all. -/
theorem keyRead?_of_not_plain (h : keyRead? cs = some (p, t)) (hp : styleOf cs ≠ .plain) :
    isUncut cs = true ∧ t = cs := by
  have hline := (of_keyRead? h).2
  rw [keyRead?, if_neg (by simp [of_keyRead? h]), keyScalar?, if_neg hp] at h
  split at h
  · cases h
  · next hw =>
    have hw : styleOf cs = .literal → cs.all isWhiteSpace = false := by simpa using hw
    have huncut : isUncut cs = true := by
      unfold isUncut
      cases hs : styleOf cs with
      | plain => exact absurd hs hp
      | single => rfl
      | double => rfl
      | literal => simp [hw hs]
    rw [quotedRead?_of_oneLine ((any_isBreak_textChars_eq_false_iff hw).1 hline)] at h
    cases h
    exact ⟨huncut, rfl⟩

theorem exists_keyRead?_iff : (∃ p, keyRead? cs = some (p, cs)) ↔ KeyKept cs := by
  constructor
  · rintro ⟨p, h⟩
    have huncut : isUncut cs = true := by
      by_cases hp : styleOf cs = .plain
      · exact (textChars_eq_self_iff hp).1 (keyRead?_of_plain h hp).symm
      · exact (keyRead?_of_not_plain h hp).1
    obtain ⟨hnear, hline⟩ := of_keyRead? h
    have hw := all_isWhiteSpace_of_isUncut huncut
    exact ⟨huncut, hnear, (any_isBreak_textChars_eq_false_iff hw).1 hline⟩
  · intro h
    have hw := all_isWhiteSpace_of_isUncut h.uncut
    have hline := (any_isBreak_textChars_eq_false_iff hw).2 h.oneLine
    rw [keyRead?, if_neg (by simp [hline, Nat.not_lt.2 h.near]), keyScalar?]
    by_cases hp : styleOf cs = .plain
    · exact ⟨true, by rw [if_pos hp, (textChars_eq_self_iff hp).2 h.uncut]⟩
    · refine ⟨false, ?_⟩
      rw [if_neg hp, if_neg (fun h => by simp [hw h.1] at h), quotedRead?_of_oneLine h.oneLine]
      rfl

/-! ## Values -/

/-- What is read of a text. -/
def textBack? (cs : List Char) : Option Value :=
  (textRead? cs).bind fun r => scalarValue? none r.1 r.2

theorem scalarValue?_plain_eq_iff {u : List Char} {x : String} :
    scalarValue? none true u = some (.text x) ↔ Form.ofPlain u = .text ∧ String.ofList u = x := by
  have hform : Form.ofScalar none true u = some (Form.ofPlain u) := rfl
  unfold scalarValue?
  rw [hform]
  cases Form.ofPlain u with
  | text => simp
  | number n => cases n <;> simp [Value.ofNumber]
  | nothing => simp
  | bool b => simp
  | tooWide => simp

theorem hasInnerIndicator_of_getLast? {before : Char} (h : cs.getLast? = some ':') :
    hasInnerIndicator before cs = true := by
  induction cs generalizing before with
  | nil => cases h
  | cons c cs ih =>
    rcases cs with _ | ⟨d, cs⟩
    · cases h
      rfl
    · rw [hasInnerIndicator, ih (by simpa using h), Bool.or_true]

/-- A text in the plain style is no indicator. -/
theorem plainRead?_of_styleOf (h : styleOf cs = .plain) : plainRead? cs = some cs := by
  obtain ⟨t, heq, hpart⟩ := plainPart_textChars h
  have hin : hasInnerIndicator 'x' cs = false := by
    rw [heq]
    exact hpart.noIndicator
  refine if_neg ?_
  rintro (rfl | rfl | hlast)
  · exact absurd h (by decide)
  · exact absurd h (by decide)
  · rw [hasInnerIndicator_of_getLast? hlast] at hin
    cases hin

theorem ofList_inj {a b : List Char} : String.ofList a = String.ofList b ↔ a = b :=
  ⟨fun h => by simpa using congrArg String.toList h, fun h => h ▸ rfl⟩

/-- A text is read back exactly if nothing of it is lost. -/
theorem textBack?_eq_iff : textBack? cs = some (.text (String.ofList cs)) ↔ TextKept cs := by
  have hquoted : ∀ {u : List Char},
      scalarValue? none false u = some (.text (String.ofList u)) := rfl
  cases h : styleOf cs with
  | plain =>
    have huncut : TextKept cs ↔ textChars cs = cs := by
      rw [textChars_eq_self_iff h]
      exact ⟨TextKept.uncut, fun hu => ⟨hu, fun hl => by simp [h] at hl⟩⟩
    rw [huncut, textBack?, textRead?, if_pos h]
    constructor
    · intro hread
      obtain ⟨r, hr, hvalue⟩ := Option.bind_eq_some_iff.1 hread
      obtain ⟨u, hu, rfl⟩ := Option.map_eq_some_iff.1 hr
      have hu : textChars cs = u := by
        unfold plainRead? at hu
        split at hu <;> cases hu
        rfl
      rw [hu]
      exact ofList_inj.1 (scalarValue?_plain_eq_iff.1 hvalue).2
    · intro hu
      have hform : Form.ofPlain cs = .text := by
        have := (allowsPlain_of_styleOf h).2
        simp only [isAmbiguous, Bool.or_eq_false_iff, decide_eq_false_iff_not] at this
        exact Decidable.not_not.1 this.1
      rw [hu, plainRead?_of_styleOf h]
      exact scalarValue?_plain_eq_iff.2 ⟨hform, rfl⟩
  | single =>
    have hkept : TextKept cs := ⟨by rw [isUncut, h], fun hl => by simp [h] at hl⟩
    simp [textBack?, textRead?, quotedRead?, h, hquoted, hkept]
  | double =>
    have hkept : TextKept cs := ⟨by rw [isUncut, h], fun hl => by simp [h] at hl⟩
    simp [textBack?, textRead?, quotedRead?, h, hquoted, hkept]
  | literal =>
    have hn := (allowsLiteral_of_styleOf h).1
    by_cases hw : cs.all isWhiteSpace = true
    · have hlost : ¬TextKept cs := fun hk => by simp [all_isWhiteSpace_of_isUncut hk.uncut h] at hw
      have hne : cs ≠ [] := List.ne_nil_of_mem hn
      rw [textBack?, textRead?, if_neg (by simp [h]), if_pos ⟨h, hw⟩, Option.bind_some, hquoted]
      simp [hlost, hne]
    · have hkept : TextKept cs ↔ hasMarkerLine cs = false ∧ joinLines false cs = cs := by
        rw [joinLines_eq_self_iff]
        constructor
        · exact fun hk => ⟨(hk.lines h).2, rfl, (hk.lines h).1⟩
        · exact fun hk => ⟨by simpa [isUncut, h] using hw, fun _ => ⟨hk.2.2, hk.1⟩⟩
      rw [hkept, textBack?, textRead?, if_neg (by simp [h]), if_neg (by simp [hw]), quotedRead?,
        if_pos h]
      cases hasMarkerLine cs with
      | true => simp
      | false => simp [hquoted, ofList_inj]

end

/-! ## Entries -/

/-- An entry with a text. -/
def textEntry (e : String × String) : String × Value := (e.1, .text e.2)

/-- The line of an entry with a text. -/
def lineChars (e : String × String) : List Char :=
  textChars e.1.toList ++ ':' :: ' ' :: (textChars e.2.toList ++ ['\n'])

/-- An entry is read back under the text of its key. -/
theorem readBack?_eq_some_iff {e : String × Value} {k : String} {v : Value} :
    readBack? e = some (k, v) ↔
      (∃ p, keyRead? e.1.toList = some (p, k.toList)) ∧
        (nodeRead? e.2).bind Node.value? = some v := by
  simp only [readBack?, entryRead?, entryOf?, Option.bind_eq_some_iff, Option.map_eq_some_iff]
  constructor
  · rintro ⟨-, ⟨a, ha, b, hb, rfl⟩, x, hx, heq⟩
    cases heq
    exact ⟨⟨a.1, by rw [String.toList_ofList]; exact ha⟩, b, hb, hx⟩
  · rintro ⟨⟨p, hp⟩, b, hb, hx⟩
    exact ⟨_, ⟨_, hp, b, hb, rfl⟩, v, hx, by rw [String.ofList_toList]⟩

theorem textBack?_eq (t : String) :
    (nodeRead? (.text t)).bind Node.value? = textBack? t.toList := by
  show ((textRead? t.toList).map _).bind _ = _
  rw [Option.bind_map]
  rfl

theorem readBack?_textEntry_iff {e e' : String × String} :
    readBack? (textEntry e) = some (textEntry e') ↔
      (∃ p, keyRead? e.1.toList = some (p, e'.1.toList)) ∧
        textBack? e.2.toList = some (.text e'.2) := by
  rw [textEntry, textEntry, readBack?_eq_some_iff, textBack?_eq]

/-- An entry is read back exactly if its key and its text are kept. -/
theorem readBack?_eq_self_iff {e : String × String} :
    readBack? (textEntry e) = some (textEntry e) ↔ KeyKept e.1.toList ∧ TextKept e.2.toList := by
  rw [readBack?_textEntry_iff, exists_keyRead?_iff, ← textBack?_eq_iff, String.ofList_toList]

/-- A key that is kept is not cut to nothing. -/
theorem KeyKept.textChars_ne_nil {k : List Char} (h : KeyKept k) : textChars k ≠ [] := by
  intro hnil
  have hp := styleOf_of_textChars_eq_nil hnil
  have hk : k = [] := ((textChars_eq_self_iff hp).2 h.uncut).symm.trans hnil
  subst hk
  exact absurd hp (by decide)

end Yaml

/-! ## Snapshots -/

/-- A snapshot of texts. -/
def Snapshot.ofTexts (ts : NameMap String) : Snapshot where
  entries := ts.entries.map fun e => (e.1, .text e.2)
  ascending := by
    rw [List.pairwise_map]
    exact ts.ascending

namespace Yaml

variable {ts : NameMap String}

theorem snapshotChars_ofTexts (h : ts.entries ≠ []) :
    snapshotChars (Snapshot.ofTexts ts) = ts.entries.flatMap lineChars := by
  have hne : (Snapshot.ofTexts ts).entries.isEmpty = false := by simpa [Snapshot.ofTexts] using h
  rw [snapshotChars, if_neg (by simp [hne])]
  show (ts.entries.map fun e => (e.1, Value.text e.2)).flatMap entryChars = _
  rw [List.flatMap_map]
  rfl

/-- The values of a snapshot of texts are its texts. -/
theorem get?_ofTexts {k : String} {t : String} :
    (Snapshot.ofTexts ts).get? k = some (.text t) ↔ (k, t) ∈ ts.entries := by
  rw [← NameMap.mem_entries_iff]
  simp [Snapshot.ofTexts]

theorem mem_of_get?_ofList {α : Type} {l : List (String × α)} {k : String} {v : α}
    (h : (NameMap.ofList l).get? k = some v) : (k, v) ∈ l := by
  have hfold : ∀ m : NameMap α, (l.foldl (fun m e => m.insert e.1 e.2) m).get? k = some v →
      (k, v) ∈ l ∨ m.get? k = some v := by
    clear h
    induction l with
    | nil => exact fun m h => Or.inr h
    | cons e l ih =>
      intro m h
      rcases ih (m.insert e.1 e.2) h with h | h
      · exact Or.inl (List.mem_cons_of_mem _ h)
      · rw [NameMap.get?_insert] at h
        split at h
        · next hk =>
          cases h
          exact Or.inl (hk ▸ List.mem_cons_self ..)
        · exact Or.inr h
  exact (hfold NameMap.empty h).resolve_right (by simp)

theorem flatMap_lineChars (l : List (String × String)) :
    l.flatMap lineChars = (l.map textEntry).flatMap entryChars := by
  rw [List.flatMap_map]
  rfl

/-- A file whose keys and texts are kept is read as the snapshot that was written. -/
theorem readSnapshot_of_kept (hne : ts.entries ≠ [])
    (h : ∀ e ∈ ts.entries, KeyKept e.1.toList ∧ TextKept e.2.toList) :
    readSnapshot (ts.entries.flatMap lineChars) = some (Snapshot.ofTexts ts) := by
  have hback : (ts.entries.map textEntry).mapM readBack? = some (Snapshot.ofTexts ts).entries := by
    rw [List.mapM_map]
    exact mapM_eq_map fun e he => readBack?_eq_self_iff.2 (h e he)
  have hkeys : ∀ e ∈ ts.entries.map textEntry, textChars e.1.toList ≠ [] :=
    List.forall_mem_map.2 fun e he => (h e he).1.textChars_ne_nil
  rw [flatMap_lineChars, readSnapshot_lines (by simpa using hne) hkeys, hback, Option.map_some,
    NameMap.ofList_entries]

/-- In a file that is read as the snapshot that was written, every key and every text is kept. -/
theorem kept_of_readSnapshot (hne : ts.entries ≠ [])
    (h : readSnapshot (ts.entries.flatMap lineChars) = some (Snapshot.ofTexts ts)) :
    ∀ e ∈ ts.entries, KeyKept e.1.toList ∧ TextKept e.2.toList := by
  have hkeys : ∀ e ∈ ts.entries, textChars e.1.toList ≠ [] := by
    cases hfind : ts.entries.find? fun e => (textChars e.1.toList).isEmpty with
    | none => simpa using List.find?_eq_none.1 hfind
    | some e =>
      obtain ⟨he, l, r, heq, hl⟩ := List.find?_eq_some_iff_append.1 hfind
      have hfront : ∀ e ∈ l.map textEntry, textChars e.1.toList ≠ [] :=
        List.forall_mem_map.2 (by simpa [textEntry] using hl)
      have hcut : textChars (textEntry e).1.toList = [] := by simpa [textEntry] using he
      rw [heq, flatMap_lineChars, List.map_append, List.map_cons,
        readSnapshot_eq_none hfront hcut] at h
      cases h
  have hlines : ∀ e ∈ ts.entries.map textEntry, textChars e.1.toList ≠ [] :=
    List.forall_mem_map.2 hkeys
  rw [flatMap_lineChars, readSnapshot_lines (by simpa using hne) hlines, List.mapM_map,
    Option.map_eq_some_iff] at h
  obtain ⟨rs, hrs, hmap⟩ := h
  -- every key is read of some line
  have hsource : ∀ e ∈ ts.entries, ∃ e' ∈ ts.entries,
      readBack? (textEntry e') = some (textEntry e) := by
    intro e he
    have hget := get?_ofTexts.2 he
    rw [← hmap] at hget
    exact exists_of_mem_mapM hrs (mem_of_get?_ofList hget)
  -- so it ends in no white space, and no key was cut
  have huncut : ∀ e ∈ ts.entries, styleOf e.1.toList = .plain → isUncut e.1.toList = true := by
    intro e he hp
    obtain ⟨e', -, hback⟩ := hsource e he
    obtain ⟨⟨p, hread⟩, -⟩ := readBack?_textEntry_iff.1 hback
    by_cases hp' : styleOf e'.1.toList = .plain
    · rw [← textChars_eq_self_iff hp, textChars_of_plain hp, trimEnd_eq_self_iff,
        keyRead?_of_plain hread hp', textChars_of_plain hp']
      exact fun c hc => not_isWhiteSpace_of_getLast?_trimEnd hc
    · rw [(keyRead?_of_not_plain hread hp').2] at hp
      exact absurd hp hp'
  -- hence each key is read of its own line
  intro e he
  obtain ⟨e', he', hback⟩ := hsource e he
  obtain ⟨⟨p, hread⟩, -⟩ := readBack?_textEntry_iff.1 hback
  have hkey : e.1 = e'.1 := by
    refine String.toList_inj.1 ?_
    by_cases hp' : styleOf e'.1.toList = .plain
    · rw [keyRead?_of_plain hread hp', (textChars_eq_self_iff hp').2 (huncut e' he' hp')]
    · exact (keyRead?_of_not_plain hread hp').2
  have hself : e = e' := by
    have hget := NameMap.get?_of_mem he
    rw [hkey, NameMap.get?_of_mem he'] at hget
    exact Prod.ext hkey (Option.some.inj hget).symm
  exact readBack?_eq_self_iff.1 (hself ▸ hback)

end Yaml

namespace Format

/-! ## Bytes -/

theorem toList_loop (bs : ByteArray) (i : Nat) (r : List UInt8) :
    ByteArray.toList.loop bs i r = r.reverse ++ bs.data.toList.drop i := by
  fun_induction ByteArray.toList.loop bs i r with
  | case1 i r h ih =>
    have hi : i < bs.data.toList.length := h
    have hget : bs.get! i = bs.data.toList[i] := getElem!_pos bs.data i h
    rw [ih, List.drop_eq_getElem_cons hi, hget]
    simp
  | case2 i r h => rw [List.drop_eq_nil_of_le (Nat.le_of_not_lt h), List.append_nil]

theorem bytesOf_append (a b : List Char) : bytesOf (a ++ b) = bytesOf a ++ bytesOf b := by
  simp [bytesOf]

/-- A text with a byte that is no white space is not blank. -/
theorem isBlankData_bytesOf {c : Char} {byte : UInt8} (hc : (bytesOf [c]).data.toList = [byte])
    (hbyte : isAsciiBlank byte = false) (a b : List Char) :
    isBlankData (bytesOf (a ++ c :: b)) = false := by
  have happend : bytesOf (a ++ c :: b) = bytesOf a ++ (bytesOf [c] ++ bytesOf b) := by
    rw [← bytesOf_append, ← bytesOf_append]
    rfl
  rw [isBlankData, ByteArray.toList, toList_loop, happend]
  simp [hc, hbyte]

theorem decode_bytesOf_eq_ok_iff {cs : List Char} (hb : isBlankData (bytesOf cs) = false)
    (s : Snapshot) :
    decode .yaml (bytesOf cs) = .ok s ↔ Yaml.readSnapshot cs = some s := by
  simp only [decode, hb, textOf?_bytesOf, Option.bind_some, Bool.false_eq_true, if_false]
  cases Yaml.readSnapshot cs <;> simp

/-- The snapshot without entries is read back. -/
theorem readSnapshot_empty : Yaml.readSnapshot ['\x7b', '\x7d', '\n'] = some NameMap.empty := by
  have hdocument : Yaml.readDocument ['\x7b', '\x7d', '\n'] =
      some ⟨[.openMap none, .closeMap], []⟩ := by
    decide
  have hentries : ∀ d, Yaml.readEntries d [.closeMap] = some ([], 0) := by
    intro d
    rw [Yaml.readEntries]
    rfl
  unfold Yaml.readSnapshot
  rw [hdocument]
  simp only [Option.bind_some, bind, hentries]
  rfl

/-- What is written for texts is read line by line. -/
theorem decode_texts_eq_ok_iff {ts : NameMap String} (hne : ts.entries ≠ []) {s : Snapshot} :
    decode .yaml (bytesOf (Yaml.snapshotChars (Snapshot.ofTexts ts))) = .ok s ↔
      Yaml.readSnapshot (ts.entries.flatMap Yaml.lineChars) = some s := by
  have hcolon : (bytesOf [':']).data.toList = [0x3A] := by decide
  obtain ⟨e, l, hl⟩ := List.exists_cons_of_ne_nil hne
  rw [Yaml.snapshotChars_ofTexts hne, decode_bytesOf_eq_ok_iff]
  rw [hl, List.flatMap_cons, Yaml.lineChars, List.append_assoc]
  exact isBlankData_bytesOf hcolon (by decide) _ _

/--
A snapshot of texts is always written, and what was written is read as the same snapshot exactly
if every key and every text is kept.
-/
theorem decode_encode_texts_iff (ts : NameMap String) :
    ∃ data, encode .yaml (Snapshot.ofTexts ts) = .ok data ∧
      (decode .yaml data = .ok (Snapshot.ofTexts ts) ↔
        ∀ e ∈ ts.entries, Yaml.KeyKept e.1.toList ∧ Yaml.TextKept e.2.toList) := by
  refine ⟨_, rfl, ?_⟩
  by_cases hne : ts.entries = []
  · -- without entries a flow mapping is written
    have hempty : Snapshot.ofTexts ts = NameMap.empty := by
      refine NameMap.ext_get? fun name => ?_
      show NameMap.lookup name (ts.entries.map _) = none
      rw [hne]
      rfl
    have hbrace : (bytesOf ['\x7b']).data.toList = [0x7B] := by decide
    have hdata := isBlankData_bytesOf hbrace (by decide) [] ['\x7d', '\n']
    rw [List.nil_append] at hdata
    rw [hempty]
    show decode .yaml (bytesOf ['\x7b', '\x7d', '\n']) = _ ↔ _
    rw [decode_bytesOf_eq_ok_iff hdata, readSnapshot_empty, hne]
    simp
  · rw [decode_texts_eq_ok_iff hne]
    exact ⟨Yaml.kept_of_readSnapshot hne, Yaml.readSnapshot_of_kept hne⟩

end Format

/-- One text under a key. -/
def Sample.oneText (text : String) : NameMap String := NameMap.ofList [("k", text)]

/-- A no-break space at the end of a text is cut. -/
theorem Format.decode_encode_cuts :
    Sample.oneText "a" ≠ Sample.oneText "a\u00a0" ∧
      ∃ data, encode .yaml (Snapshot.ofTexts (Sample.oneText "a\u00a0")) = .ok data ∧
        decode .yaml data = .ok (Snapshot.ofTexts (Sample.oneText "a")) := by
  have hlines : (Sample.oneText "a\u00a0").entries.flatMap Yaml.lineChars
      = (Sample.oneText "a").entries.flatMap Yaml.lineChars := by decide +kernel
  have hkept : ∀ e ∈ (Sample.oneText "a").entries,
      Yaml.KeyKept e.1.toList ∧ Yaml.TextKept e.2.toList := by decide +kernel
  refine ⟨by decide +kernel, _, rfl, ?_⟩
  rw [decode_texts_eq_ok_iff (List.cons_ne_nil _ _), hlines]
  exact Yaml.readSnapshot_of_kept (List.cons_ne_nil _ _) hkept

end Keepsake
