import Keepsake.Yaml.Token
/-!
# YAML documents as events

A document is a scalar, a row of scalars, or a mapping from scalars to scalars and rows: deeper
nesting is refused here, since no save file holds it. The events of a document are its scalars,
the starts and ends of its rows and of its mapping, and the aliases, which stand for something
that an anchor names.

Two steps: `ofTokens?` reads the grammar and gives aliases by name, `link` finds the event that
each alias stands for.

Termination: every list of entries or items is read from ever fewer tokens.
-/

namespace Keepsake.Yaml

/-- An event of a document; `ρ` is how an alias tells what it stands for. -/
inductive Event (ρ : Type) where
  | scalar (anchor : Option (List Char)) (tag : Option (List Char)) (plain : Bool) (text : List Char)
  | alias (target : ρ)
  | openRow (anchor : Option (List Char)) (tag : Option (List Char))
  | closeRow
  | openMap (anchor : Option (List Char))
  | closeMap
deriving DecidableEq

namespace Event

/-- The name that an event is given. -/
def anchor? {ρ : Type} : Event ρ → Option (List Char)
  | scalar a _ _ _ => a
  | openRow a _ => a
  | openMap a => a
  | _ => none

/-- What stands where nothing is written. -/
def empty : Event (List Char) := scalar none none true []

end Event

/-! ## Grammar -/

/-- What the handles of tags stand for. -/
abbrev Handles := List (List Char × List Char)

/-- The handles that every document knows. -/
def standardHandles : Handles :=
  [(['!'], ['!']), (['!', '!'], "tag:yaml.org,2002:".toList)]

/-- The full tag, if its handle is known. -/
def Tag.resolve? (handles : Handles) (t : Tag) : Option (List Char) :=
  if t.handle.isEmpty then some t.suffix
  else (handles.lookup t.handle).map (· ++ t.suffix)

/-- The anchor and the tag before a node. -/
structure Properties where
  anchor : Option (List Char)
  tag : Option (List Char)
deriving DecidableEq

/-- Whether there is neither an anchor nor a tag. -/
def Properties.isEmpty (p : Properties) : Bool := p.anchor.isNone && p.tag.isNone

/-- The events of a part of a document and the tokens behind it. -/
abbrev Parse := Option (List (Event (List Char)) × List Token)

/-- Reads an anchor and a tag, in either order. -/
def readProperties (handles : Handles) : List Token → Option (Properties × List Token)
  | .anchor a :: .tag t :: rest => (t.resolve? handles).map fun tag => (⟨some a, some tag⟩, rest)
  | .tag t :: .anchor a :: rest => (t.resolve? handles).map fun tag => (⟨some a, some tag⟩, rest)
  | .anchor a :: rest => some (⟨some a, none⟩, rest)
  | .tag t :: rest => (t.resolve? handles).map fun tag => (⟨none, some tag⟩, rest)
  | rest => some (⟨none, none⟩, rest)

/-- Reads a scalar or an alias; properties alone make an empty scalar. -/
def readLeaf (handles : Handles) : List Token → Option (Event (List Char) × List Token)
  | .alias name :: rest => some (.alias name, rest)
  | ts => match readProperties handles ts with
    | some (p, .scalar plain text :: rest) => some (.scalar p.anchor p.tag plain text, rest)
    | some (p, rest) => if p.isEmpty then none else some (.scalar p.anchor p.tag true [], rest)
    | none => none

/-- Reads a leaf, which may be left out before one of the tokens `stops`. -/
def readLeafBefore (handles : Handles) (stops : List Token) (ts : List Token) :
    Option (Event (List Char) × List Token) :=
  if ts.head?.any stops.contains then some (Event.empty, ts) else readLeaf handles ts

theorem length_le_of_readProperties {handles : Handles} {ts rest : List Token} {p : Properties}
    (h : readProperties handles ts = some (p, rest)) : rest.length ≤ ts.length := by
  unfold readProperties at h
  split at h <;> simp at h <;> grind

theorem length_le_of_readLeaf {handles : Handles} {ts rest : List Token} {e : Event (List Char)}
    (h : readLeaf handles ts = some (e, rest)) : rest.length ≤ ts.length := by
  unfold readLeaf at h
  split at h
  · simp at h; simp [h.2]
  · split at h
    · rename_i hp
      have := length_le_of_readProperties hp
      simp at h this
      rw [← h.2]; omega
    · rename_i hp
      have := length_le_of_readProperties hp
      split at h <;> simp at h
      rw [← h.2]; exact this
    · simp at h

theorem length_le_of_readLeafBefore {handles : Handles} {stops ts rest : List Token}
    {e : Event (List Char)} (h : readLeafBefore handles stops ts = some (e, rest)) :
    rest.length ≤ ts.length := by
  unfold readLeafBefore at h
  split at h
  · simp at h; simp [h.2]
  · exact length_le_of_readLeaf h

/-! ### Rows -/

/-- The items of a row in brackets behind one of them. -/
def readMoreItems (handles : Handles) : List Token → Parse
  | .closeBracket :: rest => some ([.closeRow], rest)
  | .comma :: .closeBracket :: rest => some ([.closeRow], rest)
  | .comma :: ts =>
    match h : readLeaf handles ts with
    | none => none
    | some (e, rest) =>
      have := length_le_of_readLeaf h
      (readMoreItems handles rest).map fun r => (e :: r.1, r.2)
  | _ => none
termination_by ts => ts.length
decreasing_by simp; omega

/-- The items of a row in brackets, behind the opening bracket. -/
def readItems (handles : Handles) : List Token → Parse
  | .closeBracket :: rest => some ([.closeRow], rest)
  | ts => do
    let (e, rest) ← readLeaf handles ts
    let (es, rest) ← readMoreItems handles rest
    some (e :: es, rest)

/-- The items of a row on lines of its own. -/
def readBlockItems (handles : Handles) : List Token → Parse
  | .blockEnd :: rest => some ([.closeRow], rest)
  | .entry :: ts =>
    match h : readLeafBefore handles [.entry, .blockEnd] ts with
    | none => none
    | some (e, rest) =>
      have := length_le_of_readLeafBefore h
      (readBlockItems handles rest).map fun r => (e :: r.1, r.2)
  | _ => none
termination_by ts => ts.length
decreasing_by simp; omega

/-- The items of a row that is not indented deeper than the key before it. -/
def readFlatItems (handles : Handles) : List Token → Parse
  | .entry :: ts =>
    match h : readLeafBefore handles [.entry, .key, .value, .blockEnd] ts with
    | none => none
    | some (e, rest) =>
      have := length_le_of_readLeafBefore h
      (readFlatItems handles rest).map fun r => (e :: r.1, r.2)
  | rest => some ([.closeRow], rest)
termination_by ts => ts.length
decreasing_by simp; omega

/-- Reads a scalar, an alias or a row. -/
def readNode (handles : Handles) (inBlock : Bool) : List Token → Parse
  | .alias name :: rest => some ([.alias name], rest)
  | ts => do
    let (p, rest) ← readProperties handles ts
    let row (r : List (Event (List Char)) × List Token) : List (Event (List Char)) × List Token :=
      (.openRow p.anchor p.tag :: r.1, r.2)
    match rest with
    | .scalar plain text :: rest => some ([.scalar p.anchor p.tag plain text], rest)
    | .openBracket :: rest => (readItems handles rest).map row
    | .blockSequence :: items => if inBlock then (readBlockItems handles items).map row else none
    | .entry :: _ =>
      if inBlock then (readFlatItems handles rest).map row
      else if p.isEmpty then none
      else some ([.scalar p.anchor p.tag true []], rest)
    | _ => if p.isEmpty then none else some ([.scalar p.anchor p.tag true []], rest)

/-- Reads a node, which may be left out before one of the tokens `stops`. -/
def readNodeBefore (handles : Handles) (inBlock : Bool) (stops : List Token) (ts : List Token) : Parse :=
  if ts.head?.any stops.contains then some ([Event.empty], ts) else readNode handles inBlock ts

theorem length_le_of_readMoreItems {handles : Handles} {ts rest : List Token}
    {es : List (Event (List Char))} (h : readMoreItems handles ts = some (es, rest)) :
    rest.length ≤ ts.length := by
  fun_induction readMoreItems handles ts generalizing es rest <;> simp at h <;> grind

theorem length_le_of_readItems {handles : Handles} {ts rest : List Token}
    {es : List (Event (List Char))} (h : readItems handles ts = some (es, rest)) :
    rest.length ≤ ts.length := by
  unfold readItems at h
  split at h
  · simp at h; simp [h.2]
  · simp only [bind, Option.bind_eq_some_iff] at h
    obtain ⟨⟨e, r⟩, hl, ⟨es', r'⟩, hm, he⟩ := h
    have := length_le_of_readLeaf hl
    have := length_le_of_readMoreItems hm
    grind

theorem length_le_of_readBlockItems {handles : Handles} {ts rest : List Token}
    {es : List (Event (List Char))} (h : readBlockItems handles ts = some (es, rest)) :
    rest.length ≤ ts.length := by
  fun_induction readBlockItems handles ts generalizing es rest <;> simp at h <;> grind

theorem length_le_of_readFlatItems {handles : Handles} {ts rest : List Token}
    {es : List (Event (List Char))} (h : readFlatItems handles ts = some (es, rest)) :
    rest.length ≤ ts.length := by
  fun_induction readFlatItems handles ts generalizing es rest <;> simp at h <;> grind

theorem length_le_of_readNode {handles : Handles} {inBlock : Bool} {ts rest : List Token}
    {es : List (Event (List Char))} (h : readNode handles inBlock ts = some (es, rest)) :
    rest.length ≤ ts.length := by
  unfold readNode at h
  split at h
  · simp at h; simp [h.2]
  · simp only [bind, Option.bind_eq_some_iff] at h
    obtain ⟨⟨p, r⟩, hp, h⟩ := h
    have := length_le_of_readProperties hp
    dsimp only at h
    split at h
    · grind
    · obtain ⟨⟨es', rest'⟩, hr, he⟩ := Option.map_eq_some_iff.1 h
      have := length_le_of_readItems hr
      grind
    · split at h
      · obtain ⟨⟨es', rest'⟩, hr, he⟩ := Option.map_eq_some_iff.1 h
        have := length_le_of_readBlockItems hr
        grind
      · simp at h
    · split at h
      · obtain ⟨⟨es', rest'⟩, hr, he⟩ := Option.map_eq_some_iff.1 h
        have := length_le_of_readFlatItems hr
        grind
      · grind
    · grind

theorem length_le_of_readNodeBefore {handles : Handles} {inBlock : Bool} {stops ts rest : List Token}
    {es : List (Event (List Char))} (h : readNodeBefore handles inBlock stops ts = some (es, rest)) :
    rest.length ≤ ts.length := by
  unfold readNodeBefore at h
  split at h
  · simp at h; simp [h.2]
  · exact length_le_of_readNode h

/-! ### Mappings -/

/-- Reads a key and its value, behind the token that marks the key. -/
def readPair (handles : Handles) (inBlock : Bool) (stops : List Token) (ts : List Token) : Parse := do
  let (k, rest) ← readLeafBefore handles (.value :: stops) ts
  match rest with
  | .value :: rest =>
    let (v, rest) ← readNodeBefore handles inBlock stops rest
    some (k :: v, rest)
  | _ => some ([k, Event.empty], rest)

theorem length_le_of_readPair {handles : Handles} {inBlock : Bool} {stops ts rest : List Token}
    {es : List (Event (List Char))} (h : readPair handles inBlock stops ts = some (es, rest)) :
    rest.length ≤ ts.length := by
  unfold readPair at h
  simp only [bind, Option.bind_eq_some_iff] at h
  obtain ⟨⟨k, r⟩, hk, h⟩ := h
  have := length_le_of_readLeafBefore hk
  split at h
  · simp only [Option.bind_eq_some_iff] at h
    obtain ⟨⟨v, r'⟩, hv, he⟩ := h
    have := length_le_of_readNodeBefore hv
    grind
  · grind

/-- The entries of a mapping on lines of its own. -/
def readBlockPairs (handles : Handles) : List Token → Parse
  | .blockEnd :: rest => some ([.closeMap], rest)
  | .key :: ts =>
    match h : readPair handles true [.key, .value, .blockEnd] ts with
    | none => none
    | some (es, rest) =>
      have := length_le_of_readPair h
      (readBlockPairs handles rest).map fun r => (es ++ r.1, r.2)
  | _ => none
termination_by ts => ts.length
decreasing_by simp; omega

/-- The entries of a mapping in braces behind one of them. An entry without a value is refused. -/
def readMorePairs (handles : Handles) : List Token → Parse
  | .closeBrace :: rest => some ([.closeMap], rest)
  | .comma :: .closeBrace :: rest => some ([.closeMap], rest)
  | .comma :: .key :: ts =>
    match h : readPair handles false [.comma, .closeBrace] ts with
    | none => none
    | some (es, rest) =>
      have := length_le_of_readPair h
      (readMorePairs handles rest).map fun r => (es ++ r.1, r.2)
  | _ => none
termination_by ts => ts.length
decreasing_by simp; omega

/-- The entries of a mapping in braces, behind the opening brace. -/
def readPairs (handles : Handles) : List Token → Parse
  | .closeBrace :: rest => some ([.closeMap], rest)
  | .key :: ts => do
    let (es, rest) ← readPair handles false [.comma, .closeBrace] ts
    let (more, rest) ← readMorePairs handles rest
    some (es ++ more, rest)
  | _ => none

/-! ### Documents -/

/-- Reads what a document holds. -/
def readRoot (handles : Handles) (ts : List Token) : Parse := do
  let (p, rest) ← readProperties handles ts
  match rest with
  | .openBrace :: rest => (readPairs handles rest).map fun r => (.openMap p.anchor :: r.1, r.2)
  | .blockMapping :: rest => (readBlockPairs handles rest).map fun r => (.openMap p.anchor :: r.1, r.2)
  | _ => readNode handles true ts

/-- The directives at the front of the tokens, up to the marker of the document's start. -/
def readDirectives : List Token → Option (List Directive × List Token)
  | .directive d :: rest => (readDirectives rest).map fun r => (d :: r.1, r.2)
  | .documentStart :: rest => some ([], rest)
  | _ => none

/-- Whether a version of the format is known. -/
def Directive.isKnown : Directive → Bool
  | .version major minor => decide (major = 1) && (decide (minor = 1) || decide (minor = 2))
  | .handle _ _ => true

/-- The handles that directives declare; at most one version, and no handle twice. -/
def handlesOf (ds : List Directive) : Option Handles :=
  let handles := ds.filterMap fun d => match d with
    | .handle name uri => some (name, uri)
    | .version _ _ => none
  if ds.all Directive.isKnown ∧ ds.length ≤ handles.length + 1 ∧ (handles.map (·.1)).Nodup then
    some (handles ++ standardHandles)
  else none

/-- Whether a token ends a document that holds nothing. -/
def Token.endsDocument : Token → Bool
  | .directive _ => true
  | .documentStart => true
  | .documentEnd => true
  | _ => false

/-- The events of the only document; none if there is no document. -/
def ofTokens? (ts : List Token) : Option (List (Event (List Char))) := do
  let (es, rest) ← match ts with
    | [] => some ([], [])
    | .directive _ :: _ | .documentStart :: _ => do
      let (ds, rest) ← readDirectives ts
      let handles ← handlesOf ds
      if rest.head?.all Token.endsDocument then some ([Event.empty], rest) else readRoot handles rest
    | _ => readRoot standardHandles ts
  if rest.all (· = .documentEnd) then some es else none

/-! ## Aliases -/

/--
The anchors so far: the number that each name stands for, and the event that each number stands
for.
-/
structure Anchors where
  numbers : List (List Char × Nat)
  events : List (Nat × Nat)
deriving DecidableEq

namespace Anchors

/--
Gives the name of an event a new number: as many names as there are before it. A name used again
takes a new number but makes no new name.
-/
def add (a : Anchors) (name : List Char) (event : Nat) : Anchors :=
  let number := a.numbers.length
  ⟨(name, number) :: a.numbers.filter (·.1 ≠ name), (number, event) :: a.events⟩

end Anchors

/-- A document whose aliases stand for numbers, and the event of each number. -/
structure Document where
  events : List (Event Nat)
  targets : List (Nat × Nat)
deriving DecidableEq

/-- Numbers the events from `index` on; an alias has to follow its anchor. -/
def linkFrom (a : Anchors) (index : Nat) : List (Event (List Char)) → Option Document
  | [] => some ⟨[], a.events⟩
  | e :: rest => do
    let e' ← match e with
      | .scalar anchor tag plain text => some (.scalar anchor tag plain text)
      | .alias name => (a.numbers.lookup name).map .alias
      | .openRow anchor tag => some (.openRow anchor tag)
      | .closeRow => some .closeRow
      | .openMap anchor => some (.openMap anchor)
      | .closeMap => some .closeMap
    let a := match e.anchor? with
      | some name => a.add name index
      | none => a
    let d ← linkFrom a (index + 1) rest
    some { d with events := e' :: d.events }

/-- Finds the event that each alias stands for. -/
def link (es : List (Event (List Char))) : Option Document := linkFrom ⟨[], []⟩ 0 es

/-- The events from the one that a number stands for on. -/
def Document.follow (d : Document) (number : Nat) : List (Event Nat) :=
  match d.targets.lookup number with
  | some index => d.events.drop index
  | none => []

end Keepsake.Yaml
