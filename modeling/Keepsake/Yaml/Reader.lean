import Keepsake.Snapshot
import Keepsake.Yaml.Event
import Keepsake.Yaml.Scalar
/-!
# Values and snapshots read from YAML

A snapshot is a mapping from texts to values; where a key is repeated, every value has to be
readable and the last one counts. A document that holds nothing is the empty snapshot. A key is
the text of its scalar, whatever its form or tag.

An alias is followed to the event that it stands for. To follow more than a hundred times as many
aliases as there are events is refused.

Termination: entries and items are read from ever fewer events.
-/

namespace Keepsake.Yaml

/-- What was read, how many aliases were followed for it, and the events behind it. -/
structure Reading (α : Type) where
  value : α
  follows : Nat
  rest : List (Event Nat)

/-! ## Items of a row -/

/-- The number at the front of the events, if it is a scalar. -/
def numberOf? : List (Event Nat) → Option Number
  | .scalar _ tag plain text :: _ => scalarNumber? tag plain text
  | _ => none

/-- The text at the front of the events, if it is a scalar. -/
def textOf? : List (Event Nat) → Option String
  | .scalar _ _ _ text :: _ => some (String.ofList text)
  | _ => none

/-- Reads the numbers of a row, behind its start. -/
def readNumbers (d : Document) : List (Event Nat) → Option (Reading (List Number))
  | .closeRow :: rest => some ⟨[], 0, rest⟩
  | .alias target :: rest => do
    let n ← numberOf? (d.follow target)
    let r ← readNumbers d rest
    some { r with value := n :: r.value, follows := r.follows + 1 }
  | e :: rest => do
    let n ← numberOf? [e]
    let r ← readNumbers d rest
    some { r with value := n :: r.value }
  | [] => none

/-- Reads a scalar or a row. -/
def readPlainValue (d : Document) : List (Event Nat) → Option (Reading Value)
  | .scalar _ tag plain text :: rest => (scalarValue? tag plain text).map (⟨·, 0, rest⟩)
  | .openRow _ tag :: rest =>
    if isLocalTag tag then none
    else (readNumbers d rest).map fun r => ⟨Value.ofNumbers r.value, r.follows, r.rest⟩
  | _ => none

/-- Reads a value: a scalar, a row, or an alias of one. -/
def readValue (d : Document) : List (Event Nat) → Option (Reading Value)
  | .alias target :: rest =>
    (readPlainValue d (d.follow target)).map fun r => ⟨r.value, r.follows + 1, rest⟩
  | es => readPlainValue d es

/-- Reads a key: a scalar or an alias of one. -/
def readKey (d : Document) : List (Event Nat) → Option (Reading String)
  | .alias target :: rest => (textOf? (d.follow target)).map (⟨·, 1, rest⟩)
  | e :: rest => (textOf? [e]).map (⟨·, 0, rest⟩)
  | [] => none

theorem length_le_of_readNumbers {d : Document} {es : List (Event Nat)} {r : Reading (List Number)}
    (h : readNumbers d es = some r) : r.rest.length ≤ es.length := by
  fun_induction readNumbers d es generalizing r with
  | case1 rest => simp at h; simp [← h]
  | case2 target rest ih =>
    simp only [bind, Option.bind_eq_some_iff] at h
    obtain ⟨n, _, r', hr, he⟩ := h
    have := ih hr
    grind
  | case3 e rest _ _ ih =>
    simp only [bind, Option.bind_eq_some_iff] at h
    obtain ⟨n, _, r', hr, he⟩ := h
    have := ih hr
    grind
  | case4 => simp at h

theorem length_le_of_readPlainValue {d : Document} {es : List (Event Nat)} {r : Reading Value}
    (h : readPlainValue d es = some r) : r.rest.length ≤ es.length := by
  unfold readPlainValue at h
  split at h
  · obtain ⟨v, _, he⟩ := Option.map_eq_some_iff.1 h
    simp [← he]
  · split at h
    · simp at h
    · obtain ⟨r', hr, he⟩ := Option.map_eq_some_iff.1 h
      have := length_le_of_readNumbers hr
      grind
  · simp at h

theorem length_le_of_readValue {d : Document} {es : List (Event Nat)} {r : Reading Value}
    (h : readValue d es = some r) : r.rest.length ≤ es.length := by
  unfold readValue at h
  split at h
  · obtain ⟨r', _, he⟩ := Option.map_eq_some_iff.1 h
    simp [← he]
  · exact length_le_of_readPlainValue h

theorem length_lt_of_readKey {d : Document} {es : List (Event Nat)} {r : Reading String}
    (h : readKey d es = some r) : r.rest.length < es.length := by
  unfold readKey at h
  split at h
  · obtain ⟨_, _, he⟩ := Option.map_eq_some_iff.1 h
    simp [← he]
  · obtain ⟨_, _, he⟩ := Option.map_eq_some_iff.1 h
    simp [← he]
  · simp at h

/-! ## Documents -/

/-- Reads the entries of a mapping, behind its start, and the number of aliases followed. -/
def readEntries (d : Document) (es : List (Event Nat)) : Option (List (String × Value) × Nat) :=
  if es = [.closeMap] then some ([], 0)
  else
    match hk : readKey d es with
    | none => none
    | some k =>
      match hv : readValue d k.rest with
      | none => none
      | some v =>
        have := length_lt_of_readKey hk
        have := length_le_of_readValue hv
        (readEntries d v.rest).map fun r => ((k.value, v.value) :: r.1, r.2 + k.follows + v.follows)
termination_by es.length
decreasing_by omega

/-- Whether a document may follow a number of aliases. -/
def Document.allows (d : Document) (follows : Nat) : Bool := decide (follows ≤ 100 * d.events.length)

/-- The document of a text. -/
def readDocument (cs : List Char) : Option Document :=
  if cs.all isAllowed then ((tokens cs).bind ofTokens?).bind link else none

/-- Reads a document that holds one value. -/
def readValueDocument (cs : List Char) : Option Value := do
  let d ← readDocument cs
  let r ← readValue d d.events
  if d.allows r.follows then some r.value else none

/-- Reads a document that holds a snapshot, or nothing. -/
def readSnapshot (cs : List Char) : Option Snapshot := do
  let d ← readDocument cs
  match d.events with
  | [] => some NameMap.empty
  | [.scalar _ _ true []] => some NameMap.empty
  | .openMap _ :: es => do
    let (entries, follows) ← readEntries d es
    if d.allows follows then some (NameMap.ofList entries) else none
  | _ => none

end Keepsake.Yaml
