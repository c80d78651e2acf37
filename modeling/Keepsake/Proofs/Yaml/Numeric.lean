import Keepsake.Proofs.Yaml.Kept
/-!
# What a YAML file keeps of numbers

A snapshot without texts, under keys that are short names, is written and read back as it was: every
value is a word or a row of words, and the reader finds in each word the number that was written. Of
an empty row of floats only the row is left (`Value.blurred`). A name that would be read as
something else than a text, such as `true` or `null`, stands in quotes.
-/

namespace Keepsake

/-- A key of at most a thousand letters, digits, low lines and points. -/
structure IsShortName (key : String) : Prop where
  short : key.toList.length ≤ 1000
  chars : ∀ c ∈ key.toList, c.isAlphanum = true ∨ c = '_' ∨ c = '.'

instance (key : String) : Decidable (IsShortName key) :=
  decidable_of_iff (key.toList.length ≤ 1000 ∧
      key.toList.all (fun c => decide (c.isAlphanum = true ∨ c = '_' ∨ c = '.')) = true)
    ⟨fun h => ⟨h.1, fun c hc => of_decide_eq_true (List.all_eq_true.1 h.2 c hc)⟩,
      fun h => ⟨h.short, List.all_eq_true.2 fun c hc => decide_eq_true (h.chars c hc)⟩⟩

namespace Yaml

/-! ## Keys -/

section

variable {c : Char} {cs : List Char} {p q : Char → Bool}

theorem isWhiteSpace_of_isWordPart (h : isWordPart c = true) : isWhiteSpace c = false := by
  obtain ⟨hlow, hhigh⟩ := toNat_of_isWordPart h
  simp [isWhiteSpace, inRanges, whiteSpaceRanges]
  omega

theorem hasPair_eq_false (h : cs.any p = false) : hasPair p q cs = false := by
  induction cs with
  | nil => rfl
  | cons c cs ih =>
    rw [List.any_cons, Bool.or_eq_false_iff] at h
    rw [hasPair_cons, h.1, ih h.2]
    rfl

/-- A text of word parts is written as it is, or between quotes. -/
theorem styleOf_of_parts (h : ∀ c ∈ cs, isWordPart c = true) :
    styleOf cs = .plain ∨ styleOf cs = .single := by
  have hnone : ∀ {p : Char → Bool}, (∀ c, isWordPart c = true → p c = false) → cs.any p = false :=
    fun hp => List.any_eq_false.2 fun c hc => by simp [hp c (h c hc)]
  have hline : '\n' ∉ cs := fun hc => absurd (h '\n' hc) (by decide)
  have hspace : cs.any isSpace = false := hnone fun c hc => by
    simp [isSpace, ne_of_isWordPart hc (by decide : isWordPart ' ' = false)]
  have hbreak : cs.any isBreak = false := hnone fun c hc => isBreak_of_isWordPart hc
  have hprintable : cs.all isPrintable = true :=
    List.all_eq_true.2 fun c hc => isPrintable_of_isWordPart (h c hc)
  have hsingle : allowsSingle cs = true := by
    simp [allowsSingle, hprintable, hasPair_eq_false hspace, hasPair_eq_false hbreak]
  unfold styleOf
  rw [if_neg (by simpa using hline), if_pos hsingle]
  split
  · exact Or.inl rfl
  · exact Or.inr rfl

theorem singleBody_of_parts (h : ∀ c ∈ cs, isWordPart c = true) : singleBody false cs = cs := by
  induction cs with
  | nil => rfl
  | cons c cs ih =>
    rw [List.forall_mem_cons] at h
    have hquote : c ≠ '\'' := ne_of_isWordPart h.1 (by decide)
    rw [singleBody, if_neg (by simp [isBreak_of_isWordPart h.1]), if_neg hquote, ih h.2]
    rfl

/-- A short text of word parts is kept as a key, whatever form it has. -/
theorem keyKept_of_parts (h : ∀ c ∈ cs, isWordPart c = true) (hshort : cs.length ≤ 1000) :
    KeyKept cs := by
  have hlast : cs.getLast?.any isWhiteSpace = false := by
    cases hc : cs.getLast? with
    | none => rfl
    | some c => exact isWhiteSpace_of_isWordPart (h c (List.mem_of_getLast? hc))
  have hlines : cs.any isSeparator = false := by
    refine List.any_eq_false.2 fun c hc => ?_
    have hne : c ≠ '\u2028' ∧ c ≠ '\u2029' :=
      ⟨ne_of_isWordPart (h c hc) (by decide), ne_of_isWordPart (h c hc) (by decide)⟩
    simp [isSeparator, hne]
  have hreach : Candidate.reach = 1024 := rfl
  rcases styleOf_of_parts h with hs | hs
  · have huncut : isUncut cs = true := by simp [isUncut, hs, hlast]
    refine ⟨huncut, ?_, Or.inr hlines⟩
    rw [(textChars_eq_self_iff hs).2 huncut]
    omega
  · refine ⟨by rw [isUncut, hs], ?_, Or.inr hlines⟩
    rw [textChars_of_single hs, singleBody_of_parts h]
    simp only [List.length_cons, List.length_append, List.length_nil]
    omega

theorem keyKept_of_isShortName {key : String} (h : IsShortName key) : KeyKept key.toList := by
  refine keyKept_of_parts (fun c hc => ?_) h.short
  rcases h.chars c hc with hc | rfl | rfl
  · simp [isWordPart, hc]
  · decide
  · decide

end

/-! ## Values -/

theorem value?_bool (b : Bool) :
    (Node.scalar true (Value.word b).toList).value? = some (.bool b) := by
  have hform : Form.ofPlain (Value.word b).toList = .bool b := by cases b <;> decide
  simp [Node.value?, scalarValue?, Form.ofScalar, isLocalTag, hform]

/-- A number that is read of a word. -/
theorem scalarNumber?_of_ofPlain {u : List Char} {n : Number} (h : Form.ofPlain u = .number n) :
    scalarNumber? none true u = some n ∧ scalarValue? none true u = some (Value.ofNumber n) := by
  simp [scalarNumber?, scalarValue?, Form.ofScalar, isLocalTag, h]

theorem value?_ints (is : List Whole) :
    (Node.row (is.map Whole.chars)).value? = some (.ints is) := by
  have hitems : (is.map Whole.chars).mapM (scalarNumber? none true) = some (is.map .whole) := by
    rw [List.mapM_map]
    exact mapM_eq_map fun i _ => (scalarNumber?_of_ofPlain (ofPlain_chars i)).1
  rw [Node.value?, hitems, Option.map_some, Value.ofNumbers_ints]

/-- Each float of a row is read back, a NaN as a NaN. -/
theorem exists_mapM_floats (xs : List Binary64) :
    ∃ ys, (xs.map numberLayout.chars).mapM (scalarNumber? none true) = some (ys.map .float) ∧
      Value.sameFloats ys xs = true := by
  induction xs with
  | nil => exact ⟨[], rfl, rfl⟩
  | cons x xs ih =>
    obtain ⟨ys, hys, hsame⟩ := ih
    obtain ⟨y, hy, hyx⟩ := exists_ofPlain_chars x
    refine ⟨y :: ys, ?_, by simp [Value.sameFloats, hyx, hsame]⟩
    rw [List.map_cons, mapM_cons_option, (scalarNumber?_of_ofPlain hy).1, hys]
    rfl

theorem exists_value?_floats (xs : List Binary64) :
    ∃ v, (Node.row (xs.map numberLayout.chars)).value? = some v ∧
      v.same (Value.blurred (.floats xs)) = true := by
  obtain ⟨ys, hys, hsame⟩ := exists_mapM_floats xs
  refine ⟨_, by rw [Node.value?, hys]; rfl, ?_⟩
  cases xs with
  | nil =>
    -- nothing tells of what kind an empty row was
    cases ys with
    | nil => rfl
    | cons y ys => cases hsame
  | cons x xs =>
    have hne : ys ≠ [] := by
      rintro rfl
      cases hsame
    rw [Value.ofNumbers_floats hne]
    exact hsame

/-- A value without a text is read back, but for the kind of an empty row. -/
theorem exists_value? {v : Value} (hv : v.kind ≠ .text) :
    ∃ u, (nodeRead? v).bind Node.value? = some u ∧ u.same v.blurred = true := by
  cases v with
  | bool b => exact ⟨_, value?_bool b, Value.same_self _⟩
  | int i => exact ⟨_, (scalarNumber?_of_ofPlain (ofPlain_chars i)).2, Value.same_self _⟩
  | float x =>
    obtain ⟨y, hy, hsame⟩ := exists_ofPlain_chars x
    exact ⟨_, (scalarNumber?_of_ofPlain hy).2, hsame⟩
  | text t => exact absurd rfl hv
  | ints is => exact ⟨_, value?_ints is, Value.same_self _⟩
  | floats xs => exact exists_value?_floats xs

/-! ## Entries -/

theorem exists_readBack? {e : String × Value} (hk : IsShortName e.1) (hv : e.2.kind ≠ .text) :
    ∃ v, readBack? e = some (e.1, v) ∧ v.same e.2.blurred = true := by
  obtain ⟨v, hread, hsame⟩ := exists_value? hv
  have hkey := exists_keyRead?_iff.2 (keyKept_of_isShortName hk)
  exact ⟨v, readBack?_eq_some_iff.2 ⟨hkey, hread⟩, hsame⟩

/-- Entries are read back one by one. -/
theorem exists_mapM_readBack? {l : List (String × Value)}
    (h : ∀ e ∈ l, IsShortName e.1 ∧ e.2.kind ≠ .text) :
    ∃ r, l.mapM readBack? = some r ∧
      Snapshot.sameEntries r (l.map fun e => (e.1, e.2.blurred)) = true := by
  induction l with
  | nil => exact ⟨[], rfl, rfl⟩
  | cons e l ih =>
    rw [List.forall_mem_cons] at h
    obtain ⟨v, hv, hvsame⟩ := exists_readBack? h.1.1 h.1.2
    obtain ⟨r, hr, hsame⟩ := ih h.2
    refine ⟨(e.1, v) :: r, by rw [mapM_cons_option, hv, hr]; rfl, ?_⟩
    simp [Snapshot.sameEntries, hvsame, hsame]

/-- A snapshot of numbers is read back, but for the kinds of empty rows. -/
theorem exists_readSnapshot {s : Snapshot} (hne : s.entries ≠ [])
    (h : ∀ e ∈ s.entries, IsShortName e.1 ∧ e.2.kind ≠ .text) :
    ∃ read, readSnapshot (s.entries.flatMap entryChars) = some read ∧
      read.same s.blurred = true := by
  obtain ⟨r, hr, hsame⟩ := exists_mapM_readBack? h
  have hread : r.map (·.1) = s.blurred.keys := Snapshot.keys_eq_of_sameEntries hsame
  have hkeys : ∀ e ∈ s.entries, textChars e.1.toList ≠ [] := fun e he =>
    (keyKept_of_isShortName (h e he).1).textChars_ne_nil
  -- the keys that are read ascend as the written ones do, so no entry is put over another
  have hascending : r.Pairwise (fun a b => a.1 < b.1) := by
    have hsorted := s.blurred.keys_ascending
    rw [← hread, List.pairwise_map] at hsorted
    exact hsorted
  refine ⟨⟨r, hascending⟩, ?_, hsame⟩
  rw [readSnapshot_lines hne hkeys, hr, Option.map_some]
  exact congrArg some (NameMap.ofList_entries ⟨r, hascending⟩)

end Yaml

namespace Format

/-! ## Snapshots -/

/-- The file of a snapshot without entries is read as one. -/
theorem decode_of_empty {s : Snapshot} (h : s.entries = []) :
    decode .yaml (bytesOf (Yaml.snapshotChars s)) = .ok s := by
  have hbrace : (bytesOf ['\x7b']).data.toList = [0x7B] := by decide
  have hblank : isBlankData (bytesOf ['\x7b', '\x7d', '\n']) = false :=
    isBlankData_bytesOf hbrace (by decide) [] ['\x7d', '\n']
  have hchars : Yaml.snapshotChars s = ['\x7b', '\x7d', '\n'] := by
    rw [Yaml.snapshotChars, h]
    rfl
  have hempty : s = NameMap.empty := by
    obtain ⟨l, hl⟩ := s
    cases h
    rfl
  rw [hchars, decode_bytesOf_eq_ok_iff hblank, readSnapshot_empty, hempty]

/-- Any other file is read as its lines are. -/
theorem decode_of_lines {s t : Snapshot} (hne : s.entries ≠ [])
    (h : Yaml.readSnapshot (s.entries.flatMap Yaml.entryChars) = some t) :
    decode .yaml (bytesOf (Yaml.snapshotChars s)) = .ok t := by
  have hcolon : (bytesOf [':']).data.toList = [0x3A] := by decide
  have hchars : Yaml.snapshotChars s = s.entries.flatMap Yaml.entryChars := by
    rw [Yaml.snapshotChars, if_neg (by simpa using hne)]
  obtain ⟨e, l, hl⟩ := List.exists_cons_of_ne_nil hne
  rw [hchars, decode_bytesOf_eq_ok_iff]
  · exact h
  · rw [hl, List.flatMap_cons, Yaml.entryChars, List.append_assoc]
    exact isBlankData_bytesOf hcolon (by decide) _ _

/--
A snapshot without texts under short names is always written, and what was written is read as the
same snapshot, except that an empty row of floats is read as one of integers.
-/
theorem decode_encode_numeric (s : Snapshot)
    (h : ∀ e ∈ s.entries, IsShortName e.1 ∧ e.2.kind ≠ .text) :
    ∃ data read, encode .yaml s = .ok data ∧ decode .yaml data = .ok read ∧
      read.same s.blurred = true := by
  by_cases hne : s.entries = []
  · have hblurred : s.blurred = s := by
      obtain ⟨l, hl⟩ := s
      cases hne
      rfl
    refine ⟨_, s, rfl, decode_of_empty hne, ?_⟩
    rw [hblurred]
    exact Snapshot.same_self s
  · obtain ⟨read, hread, hsame⟩ := Yaml.exists_readSnapshot hne h
    exact ⟨_, read, rfl, decode_of_lines hne hread, hsame⟩

end Format

namespace Sample

theorem fitsWord_least : FitsWord (-0x8000000000000000) := by decide

theorem fitsWord_greatest : FitsWord 0x7FFFFFFFFFFFFFFF := by decide

/-- Values of all kinds but texts, most of them under names that are words of YAML. -/
def numbers : Snapshot := NameMap.ofList
  [("null", .int ⟨-0x8000000000000000, fitsWord_least⟩),
    ("true", .bool false),
    ("y", .float (Binary64.ofBits 0xFFF8000000000001)),
    ("level.size_2", .floats [Binary64.zero true, Binary64.infinity true, Binary64.ofBits 1]),
    ("no", .floats []),
    ("row", .ints [⟨0x7FFFFFFFFFFFFFFF, fitsWord_greatest⟩, ⟨-0x8000000000000000, fitsWord_least⟩])]

end Sample

theorem Format.decode_encode_numbers :
    (∀ e ∈ Sample.numbers.entries, IsShortName e.1 ∧ e.2.kind ≠ .text) ∧
      ∃ data read, encode .yaml Sample.numbers = .ok data ∧ decode .yaml data = .ok read ∧
        read.same Sample.numbers.blurred = true := by
  have hentries : ∀ e ∈ Sample.numbers.entries, IsShortName e.1 ∧ e.2.kind ≠ .text := by
    decide +kernel
  exact ⟨hentries, decode_encode_numeric Sample.numbers hentries⟩

end Keepsake
