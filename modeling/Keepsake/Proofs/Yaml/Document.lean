import Keepsake.Proofs.Yaml.Allowed
import Keepsake.Proofs.Yaml.Line
import Keepsake.Proofs.Yaml.Standing
import Keepsake.Yaml.Reader
/-!
# A file as a document

The lines of a file are read one by one and make the entries of the document
(`readSnapshot_lines`): the file is refused if one of them is. A key that was cut to nothing leaves
the colon of its line without a key, and that refuses the file whatever follows
(`readSnapshot_eq_none`).
-/

namespace Keepsake.Yaml

variable {l : List (String × Value)}

/-! ## Tokens -/

namespace Scanner

/-- Without a key in front of it the colon of an entry stands for good. -/
theorem exists_next_colon (opened : Bool) {m : Mark} (hm : m.column = 0) (ts : List Token)
    (cs : List Char) :
    ∃ s', (atEntry opened m ts (':' :: ' ' :: cs)).next = some s' ∧
      s'.Stands (.value :: (if opened then ts else .blockMapping :: ts)) := by
  generalize hfront : (if opened then ts else .blockMapping :: ts) = front
  have hroll : (atEntry opened m ts (':' :: ' ' :: cs)).roll .blockMapping =
      atEntry true m front (':' :: ' ' :: cs) := by
    rw [← hfront]
    cases opened <;> simp [roll, opensBlock, inFlow, column, emit, outside, hm]
  refine ⟨atEntry true (m.forward 1) (.value :: front) (' ' :: cs), ?_,
    List.suffix_refl _, rfl, fun _ h => (by cases h), fun _ h => (by cases h)⟩
  show (atEntry opened m ts (':' :: ' ' :: cs)).take ':' (' ' :: cs) = _
  rw [take_colon rfl]
  unfold takeValue
  rw [hroll]
  rfl

theorem finish_atEntry (m : Mark) (ts : List Token) :
    (atEntry true m ts []).finish = some (ts.reverse ++ [.blockEnd]) := by
  have hclose : closeBlocks (-1) 0 [-1] ts ts.length =
      (-1, [], .blockEnd :: ts, ts.length + 1) := rfl
  simp [finish, unroll, outside, inFlow, hclose, releaseCandidate, release]

end Scanner

theorem tokens_lines (hne : l ≠ []) (hl : ∀ e ∈ l, textChars e.1.toList ≠ []) :
    tokens (l.flatMap entryChars) =
      (l.mapM entryRead?).map fun rs =>
        .blockMapping :: (rs.flatMap entryTokens ++ [.blockEnd]) := by
  have hstarts : startsEntry (l.flatMap entryChars) = true := by
    simpa using Scanner.startsEntry_lines hl (rfl : startsEntry [] = true)
  obtain ⟨m', fuel', -, -, hlines⟩ := Scanner.proceed_lines (m := Mark.start) false hl rfl
    (rfl : startsEntry [] = true) 0
  rw [Nat.zero_add, List.append_nil] at hlines
  have hempty : l.isEmpty = false := by simpa using hne
  show Scanner.run _ (Scanner.atEntry false Mark.start [] (l.flatMap entryChars)) = _
  rw [Scanner.run_succ, Scanner.advance_of_startsEntry hstarts, Option.bind_some, hlines]
  cases l.mapM entryRead? with
  | none => rfl
  | some rs =>
    rw [Option.bind_some, hempty]
    exact (Scanner.finish_atEntry m' _).trans (by simp)

/-- Where a key was cut to nothing, a colon stands where a key is due. -/
theorem exists_of_tokens_eq_some {e : String × Value} {r : List (String × Value)}
    (hl : ∀ e ∈ l, textChars e.1.toList ≠ []) (he : textChars e.1.toList = []) {ts : List Token}
    (ht : tokens ((l ++ e :: r).flatMap entryChars) = some ts) :
    ∃ rs more, l.mapM entryRead? = some rs ∧
      ts = .blockMapping :: (rs.flatMap entryTokens ++ .value :: more) := by
  have hline : (l ++ e :: r).flatMap entryChars =
      l.flatMap entryChars ++
        ':' :: ' ' :: (valueChars e.2 ++ '\n' :: r.flatMap entryChars) := by
    simp [entryChars, he]
  rw [hline] at ht
  generalize htail : valueChars e.2 ++ '\n' :: r.flatMap entryChars = tail at ht
  generalize hcs : l.flatMap entryChars ++ ':' :: ' ' :: tail = cs at ht
  have hfuel : (l.flatMap entryChars).length ≤ cs.length := by
    rw [← hcs, List.length_append]
    omega
  have hstarts : startsEntry cs = true := hcs ▸ Scanner.startsEntry_lines hl rfl
  have hcolon : startsEntry (':' :: ' ' :: tail) = true := rfl
  obtain ⟨m', fuel', hm', -, hlines⟩ := Scanner.proceed_lines (m := Mark.start) false hl rfl hcolon
    (cs.length - (l.flatMap entryChars).length)
  simp only [Nat.sub_add_cancel hfuel, hcs, Bool.false_or] at hlines
  change Scanner.run _ (Scanner.atEntry false Mark.start [] cs) = _ at ht
  rw [Scanner.run_succ, Scanner.advance_of_startsEntry hstarts, Option.bind_some, hlines] at ht
  obtain ⟨rs, hrs, ht⟩ := Option.bind_eq_some_iff.1 ht
  refine ⟨rs, ?_⟩
  -- no later token goes in front of the colon, since nothing waits there for one
  obtain ⟨s', hnext, hstands⟩ := Scanner.exists_next_colon (!l.isEmpty) hm'
    ((rs.flatMap entryTokens).reverse ++ if l.isEmpty then [] else [.blockMapping]) tail
  rw [Scanner.proceed_of_cons rfl, hnext, Option.bind_some] at ht
  obtain ⟨more, rfl⟩ := hstands.run ht
  refine ⟨more, hrs, ?_⟩
  cases l with
  | nil =>
    cases hrs
    rfl
  | cons e l => simp

/-! ## Grammar -/

/-- The events of a value. -/
def Node.events {ρ : Type} : Node → List (Event ρ)
  | .scalar plain text => [.scalar none none plain text]
  | .row items => .openRow none none :: (items.map (.scalar none none true) ++ [.closeRow])

/-- The events of an entry. -/
def entryEvents {ρ : Type} (r : (Bool × List Char) × Node) : List (Event ρ) :=
  .scalar none none r.1.1 r.1.2 :: r.2.events

theorem readLeaf_scalar (handles : Handles) (plain : Bool) (text : List Char)
    (rest : List Token) : readLeaf handles (.scalar plain text :: rest) =
      some (.scalar none none plain text, rest) := by
  simp [readLeaf, readProperties]

theorem readMoreItems_moreTokens (handles : Handles) (us : List (List Char)) (tail : List Token) :
    readMoreItems handles (moreTokens us ++ .closeBracket :: tail) =
      some (us.map (.scalar none none true) ++ [.closeRow], tail) := by
  induction us with
  | nil =>
    show readMoreItems handles (.closeBracket :: tail) = _
    rw [readMoreItems]
    rfl
  | cons u us ih =>
    show readMoreItems handles
      (.comma :: .scalar true u :: (moreTokens us ++ .closeBracket :: tail)) = _
    rw [readMoreItems]
    · split
      · next h => simp [readLeaf_scalar] at h
      · next e rest h =>
        rw [readLeaf_scalar] at h
        cases h
        rw [ih]
        rfl
    · simp

/-- The items of a row are read one after the other. -/
theorem readItems_rowTokens (handles : Handles) (us : List (List Char)) (tail : List Token) :
    ∃ items, rowTokens us ++ tail = .openBracket :: items ∧
      readItems handles items = some (us.map (.scalar none none true) ++ [.closeRow], tail) := by
  cases us with
  | nil => exact ⟨_, rfl, rfl⟩
  | cons u us =>
    refine ⟨.scalar true u :: (moreTokens us ++ .closeBracket :: tail), by simp [rowTokens], ?_⟩
    rw [readItems]
    · simp [readLeaf_scalar, readMoreItems_moreTokens]
    · simp

/-- The tokens before which a value may be left out. -/
def stopsEntry (ts : List Token) : Bool := ts.head?.any [Token.key, .value, .blockEnd].contains

/-- A value is read up to what stops its entry. -/
theorem readNodeBefore_tokens (handles : Handles) {tail : List Token}
    (ht : stopsEntry tail = true) (n : Node) :
    readNodeBefore handles true [.key, .value, .blockEnd] (n.tokens ++ tail) =
      some (n.events, tail) := by
  cases n with
  | scalar plain text =>
    rw [Node.tokens]
    split
    · next h =>
      obtain ⟨rfl, rfl⟩ := h
      exact if_pos ht
    · simp [readNodeBefore, readNode, readProperties, Node.events]
  | row items =>
    obtain ⟨inner, hsplit, hitems⟩ := readItems_rowTokens handles items tail
    rw [Node.tokens, hsplit]
    simp [readNodeBefore, readNode, readProperties, hitems, Node.events]

theorem readPair_entryTokens (handles : Handles) {tail : List Token} (ht : stopsEntry tail = true)
    (k : Bool × List Char) (v : Node) :
    readPair handles true [.key, .value, .blockEnd]
        (.scalar k.1 k.2 :: .value :: (v.tokens ++ tail)) =
      some (entryEvents (k, v), tail) := by
  have hkey : ∀ rest, readLeafBefore handles (.value :: [.key, .value, .blockEnd])
      (.scalar k.1 k.2 :: rest) = some (.scalar none none k.1 k.2, rest) := by
    intro rest
    simp [readLeafBefore, readLeaf_scalar]
  unfold readPair
  simp only [hkey, readNodeBefore_tokens handles ht, bind, Option.bind_some]
  rfl

theorem readBlockPairs_entryTokens (handles : Handles) {tail : List Token}
    (ht : stopsEntry tail = true) (r : (Bool × List Char) × Node) :
    readBlockPairs handles (entryTokens r ++ tail) =
      (readBlockPairs handles tail).map fun p => (entryEvents r ++ p.1, p.2) := by
  have hpair := readPair_entryTokens handles ht r.1 r.2
  show readBlockPairs handles (.key :: .scalar r.1.1 r.1.2 :: .value :: (_ ++ tail)) = _
  rw [readBlockPairs]
  split
  · next h => simp [hpair] at h
  · next es rest h =>
    obtain ⟨rfl, rfl⟩ : entryEvents (r.1, r.2) = es ∧ tail = rest := by simpa [hpair] using h
    rfl

theorem stopsEntry_flatMap {tail : List Token} (ht : stopsEntry tail = true)
    (rs : List ((Bool × List Char) × Node)) :
    stopsEntry (rs.flatMap entryTokens ++ tail) = true := by
  cases rs with
  | nil => exact ht
  | cons r rs => rfl

/-- Entries are read one after the other. -/
theorem readBlockPairs_flatMap (handles : Handles) {tail : List Token} (ht : stopsEntry tail = true)
    (rs : List ((Bool × List Char) × Node)) :
    readBlockPairs handles (rs.flatMap entryTokens ++ tail) =
      (readBlockPairs handles tail).map fun p => (rs.flatMap entryEvents ++ p.1, p.2) := by
  induction rs with
  | nil => simp
  | cons r rs ih =>
    rw [List.flatMap_cons, List.append_assoc,
      readBlockPairs_entryTokens handles (stopsEntry_flatMap ht rs), ih, Option.map_map]
    simp [Function.comp_def]

/-- The events of a file of entries. -/
def fileEvents {ρ : Type} (rs : List ((Bool × List Char) × Node)) : List (Event ρ) :=
  .openMap none :: (rs.flatMap entryEvents ++ [.closeMap])

theorem ofTokens?_entries (rs : List ((Bool × List Char) × Node)) :
    ofTokens? (.blockMapping :: (rs.flatMap entryTokens ++ [.blockEnd])) =
      some (fileEvents rs) := by
  have hpairs := readBlockPairs_flatMap standardHandles (rfl : stopsEntry [.blockEnd] = true) rs
  have hend : readBlockPairs standardHandles [.blockEnd] = some ([.closeMap], []) := by
    rw [readBlockPairs]
  rw [hend] at hpairs
  simp [ofTokens?, readRoot, readProperties, hpairs, fileEvents]

theorem ofTokens?_eq_none (rs : List ((Bool × List Char) × Node))
    (more : List Token) :
    ofTokens? (.blockMapping :: (rs.flatMap entryTokens ++ .value :: more)) = none := by
  have hpairs := readBlockPairs_flatMap standardHandles
    (rfl : stopsEntry (.value :: more) = true) rs
  have hend : readBlockPairs standardHandles (.value :: more) = none := by
    rw [readBlockPairs] <;> simp
  rw [hend] at hpairs
  simp [ofTokens?, readRoot, readProperties, hpairs]

/-! ## Links and entries -/

theorem linkFrom_scalar (i : Nat) (plain : Bool) (text : List Char)
    (es : List (Event (List Char))) :
    linkFrom ⟨[], []⟩ i (.scalar none none plain text :: es) =
      (linkFrom ⟨[], []⟩ (i + 1) es).map
        fun d => { d with events := .scalar none none plain text :: d.events } := by
  simp only [linkFrom, Event.anchor?, bind, Option.bind_some]
  cases linkFrom ⟨[], []⟩ (i + 1) es <;> rfl

/-- A value without names is linked as it is. -/
theorem linkFrom_node {es : List (Event (List Char))} {d : Document}
    (h : ∀ i, linkFrom ⟨[], []⟩ i es = some d) (n : Node) (i : Nat) :
    linkFrom ⟨[], []⟩ i (n.events ++ es) = some { d with events := n.events ++ d.events } := by
  cases n with
  | scalar plain text =>
    show linkFrom ⟨[], []⟩ i (.scalar none none plain text :: es) = _
    rw [linkFrom_scalar, h]
    rfl
  | row items =>
    have hitems : ∀ i, linkFrom ⟨[], []⟩ i
        (items.map (.scalar none none true) ++ .closeRow :: es) =
          some { d with
            events := items.map (.scalar none none true) ++ .closeRow :: d.events } := by
      induction items with
      | nil => simp [linkFrom, Event.anchor?, h]
      | cons u items ih =>
        intro i
        rw [List.map_cons, List.cons_append, linkFrom_scalar, ih]
        rfl
    simp [Node.events, linkFrom, Event.anchor?, hitems]

/-- Entries without names are linked as they are. -/
theorem linkFrom_entries (rs : List ((Bool × List Char) × Node)) (i : Nat) :
    linkFrom ⟨[], []⟩ i (rs.flatMap entryEvents ++ [.closeMap]) =
      some ⟨rs.flatMap entryEvents ++ [.closeMap], []⟩ := by
  induction rs generalizing i with
  | nil => rfl
  | cons r rs ih =>
    rw [List.flatMap_cons, List.append_assoc, entryEvents, List.cons_append, linkFrom_scalar,
      linkFrom_node ih]
    simp [entryEvents]

theorem link_fileEvents (rs : List ((Bool × List Char) × Node)) :
    link (fileEvents rs) = some ⟨fileEvents rs, []⟩ := by
  simp [link, fileEvents, linkFrom, Event.anchor?, linkFrom_entries]

/-- The value that was read. -/
def Node.value? : Node → Option Value
  | .scalar plain text => scalarValue? none plain text
  | .row items => (items.mapM (scalarNumber? none true)).map Value.ofNumbers

/-- The entry that was read. -/
def entryOf? (r : (Bool × List Char) × Node) : Option (String × Value) :=
  r.2.value?.map fun v => (String.ofList r.1.2, v)

theorem readNumbers_scalars (d : Document) (items : List (List Char)) (es : List (Event Nat)) :
    readNumbers d (items.map (.scalar none none true) ++ .closeRow :: es) =
      (items.mapM (scalarNumber? none true)).map (⟨·, 0, es⟩) := by
  induction items with
  | nil => rfl
  | cons u items ih =>
    rw [List.map_cons, List.cons_append, readNumbers, mapM_cons_option, ih]
    · show (scalarNumber? none true u).bind _ = _
      cases scalarNumber? none true u with
      | none => rfl
      | some x => cases items.mapM (scalarNumber? none true) <;> rfl
    · simp
    · simp

theorem readValue_events (d : Document) (n : Node) (es : List (Event Nat)) :
    readValue d (n.events ++ es) = n.value?.map (⟨·, 0, es⟩) := by
  cases n with
  | scalar plain text => rfl
  | row items =>
    have hread := readNumbers_scalars d items es
    have hrow : (Node.row items).events ++ es =
        .openRow none none :: (items.map (.scalar none none true) ++ .closeRow :: es) := by
      simp [Node.events]
    show readValue d (_ ++ es) = _
    rw [hrow]
    show (readNumbers d _).map _ = _
    rw [hread, Option.map_map, Node.value?, Option.map_map]
    rfl

theorem readEntries_entryEvents (d : Document) (rs : List ((Bool × List Char) × Node)) :
    readEntries d (rs.flatMap entryEvents ++ [.closeMap]) =
      (rs.mapM entryOf?).map fun es => (es, 0) := by
  induction rs with
  | nil =>
    rw [readEntries]
    rfl
  | cons r rs ih =>
    generalize hrest : rs.flatMap entryEvents ++ [.closeMap] = rest at ih
    have hevents : (r :: rs).flatMap entryEvents ++ [.closeMap] = entryEvents r ++ rest := by
      rw [List.flatMap_cons, List.append_assoc, hrest]
    have hkey : readKey d (entryEvents r ++ rest) =
        some ⟨String.ofList r.1.2, 0, r.2.events ++ rest⟩ := rfl
    have hvalue := readValue_events d r.2 rest
    rw [hevents, readEntries, if_neg (by simp [entryEvents]), mapM_cons_option]
    split
    · next h => cases hkey.symm.trans h
    · next k h =>
      cases hkey.symm.trans h
      split
      · next h =>
        rw [hvalue, Option.map_eq_none_iff] at h
        rw [entryOf?, h]
        rfl
      · next v h =>
        rw [hvalue] at h
        obtain ⟨w, hw, rfl⟩ := Option.map_eq_some_iff.1 h
        rw [entryOf?, hw, ih]
        cases rs.mapM entryOf? <;> rfl

/-! ## Snapshots -/

/-- The entry that is read of an entry's line. -/
def readBack? (e : String × Value) : Option (String × Value) := (entryRead? e).bind entryOf?

theorem mapM_bind {α β γ : Type} (f : α → Option β) (g : β → Option γ) (l : List α) :
    (l.mapM f).bind (·.mapM g) = l.mapM fun a => (f a).bind g := by
  induction l with
  | nil => rfl
  | cons a l ih =>
    rw [mapM_cons_option, mapM_cons_option, ← ih]
    cases hf : f a with
    | none => rfl
    | some b =>
      simp only [Option.bind_some]
      cases l.mapM f with
      | none => cases g b <;> rfl
      | some bs =>
        simp only [Option.map_some, Option.bind_some]
        exact mapM_cons_option g b bs

theorem all_isAllowed_of_isWord {u : List Char} (hu : IsWord u) : u.all isAllowed = true := by
  refine List.all_eq_true.2 fun c hc => ?_
  exact isAllowed_of_isPrintable (isPrintable_of_isWordPart (hu.parts c hc))

theorem all_isAllowed_rowChars {us : List (List Char)} (hus : ∀ u ∈ us, IsWord u) :
    (rowChars us).all isAllowed = true := by
  have hsigns : isAllowed '[' = true ∧ isAllowed ']' = true ∧ isAllowed ',' = true ∧
      isAllowed ' ' = true := by decide
  cases us with
  | nil => decide
  | cons u us =>
    rw [List.forall_mem_cons] at hus
    have hmore : (moreChars us).all isAllowed = true := by
      rw [moreChars, List.all_flatMap, List.all_eq_true]
      intro v hv
      simp [hsigns, all_isAllowed_of_isWord (hus.2 v hv)]
    simp [rowChars, commaSpaced_cons, hsigns, hmore, all_isAllowed_of_isWord hus.1]

/-- Whatever is written for a value may stand in a document. -/
theorem all_isAllowed_valueChars (v : Value) : (valueChars v).all isAllowed = true := by
  cases v with
  | bool b => exact all_isAllowed_of_isWord (isWord_word b)
  | int i => exact all_isAllowed_of_isWord (isWord_chars i)
  | float x => exact all_isAllowed_of_isWord (isWord_numberChars x)
  | text t => exact all_isAllowed_textChars t.toList
  | ints is => exact all_isAllowed_rowChars (List.forall_mem_map.2 fun i _ => isWord_chars i)
  | floats xs =>
    exact all_isAllowed_rowChars (List.forall_mem_map.2 fun x _ => isWord_numberChars x)

theorem all_isAllowed_lines (l : List (String × Value)) :
    (l.flatMap entryChars).all isAllowed = true := by
  have hsigns : isAllowed ':' = true ∧ isAllowed ' ' = true ∧ isAllowed '\n' = true := by decide
  rw [List.all_flatMap, List.all_eq_true]
  intro e _
  simp [entryChars, all_isAllowed_textChars, all_isAllowed_valueChars, hsigns]

/-- A file is read line by line. -/
theorem readSnapshot_lines (hne : l ≠ []) (hl : ∀ e ∈ l, textChars e.1.toList ≠ []) :
    readSnapshot (l.flatMap entryChars) = (l.mapM readBack?).map NameMap.ofList := by
  have hdocument : readDocument (l.flatMap entryChars) =
      (l.mapM entryRead?).map fun rs => ⟨fileEvents rs, []⟩ := by
    rw [readDocument, if_pos (all_isAllowed_lines l), tokens_lines hne hl]
    cases l.mapM entryRead? with
    | none => rfl
    | some rs => simp [ofTokens?_entries, link_fileEvents]
  have hread : l.mapM readBack? = (l.mapM entryRead?).bind (·.mapM entryOf?) :=
    (mapM_bind entryRead? entryOf? l).symm
  unfold readSnapshot
  rw [hdocument, hread]
  cases l.mapM entryRead? with
  | none => rfl
  | some rs =>
    simp only [Option.map_some, Option.bind_some, bind, fileEvents, readEntries_entryEvents]
    cases rs.mapM entryOf? <;> simp [Document.allows]

/-- A key that was cut to nothing makes the file unreadable. -/
theorem readSnapshot_eq_none {e : String × Value} {r : List (String × Value)}
    (hl : ∀ e ∈ l, textChars e.1.toList ≠ []) (he : textChars e.1.toList = []) :
    readSnapshot ((l ++ e :: r).flatMap entryChars) = none := by
  have hdocument : readDocument ((l ++ e :: r).flatMap entryChars) = none := by
    unfold readDocument
    split
    · cases ht : tokens ((l ++ e :: r).flatMap entryChars) with
      | none => rfl
      | some ts =>
        obtain ⟨rs, more, -, rfl⟩ := exists_of_tokens_eq_some hl he ht
        rw [Option.bind_some, ofTokens?_eq_none]
        rfl
    · rfl
  unfold readSnapshot
  rw [hdocument]
  rfl

end Keepsake.Yaml
