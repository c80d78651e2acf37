import Keepsake.Json.Token
import Keepsake.Snapshot
/-!
# Values and snapshots read from JSON

A value is a boolean, a number, a string, or an array of numbers. An array whose numbers are all
integers is a row of integers, and one with a float anywhere a row of floats. A snapshot is an
object of values; where a key is repeated, every value has to be readable and the last one counts.
Anything else, `null` and deeper nesting included, is refused.

Termination: the entries of an object are read from ever fewer tokens.
-/

namespace Keepsake.Json

/-- The items of an array after its first, up to the closing bracket. -/
def readMoreItems : List Token → Option (List Number × List Token)
  | .closeBracket :: rest => some ([], rest)
  | .comma :: .number n :: rest =>
    match Number.read n, readMoreItems rest with
    | some x, some (xs, tail) => some (x :: xs, tail)
    | _, _ => none
  | _ => none

/-- The items of an array whose opening bracket has been read. -/
def readItems : List Token → Option (List Number × List Token)
  | .closeBracket :: rest => some ([], rest)
  | .number n :: rest =>
    match Number.read n, readMoreItems rest with
    | some x, some (xs, tail) => some (x :: xs, tail)
    | _, _ => none
  | _ => none

/-- A value at the front of the tokens, and the tokens after it. -/
def readValue : List Token → Option (Value × List Token)
  | .text cs :: rest => some (.text (String.ofList cs), rest)
  | .number n :: rest => (Number.read n).map (Value.ofNumber ·, rest)
  | .word ['t', 'r', 'u', 'e'] :: rest => some (.bool true, rest)
  | .word ['f', 'a', 'l', 's', 'e'] :: rest => some (.bool false, rest)
  | .openBracket :: rest => (readItems rest).map fun r => (Value.ofNumbers r.1, r.2)
  | _ => none

theorem length_lt_of_readMoreItems {ts rest : List Token} {ns : List Number}
    (h : readMoreItems ts = some (ns, rest)) : rest.length < ts.length := by
  fun_induction readMoreItems ts generalizing ns rest with
  | case1 r => simp at h; simp [h.2]
  | case2 n r x xs tail hs _ ih =>
    simp at h
    have := ih hs
    simp [← h.2]; omega
  | case3 => simp at h
  | case4 => simp at h

theorem length_lt_of_readItems {ts rest : List Token} {ns : List Number}
    (h : readItems ts = some (ns, rest)) : rest.length < ts.length := by
  unfold readItems at h
  split at h
  · simp at h; simp [h.2]
  · split at h
    · rename_i hs
      simp at h
      have := length_lt_of_readMoreItems hs
      simp [← h.2]; omega
    · simp at h
  · simp at h

/-- A value takes at least one token. -/
theorem length_lt_of_readValue {ts rest : List Token} {v : Value}
    (h : readValue ts = some (v, rest)) : rest.length < ts.length := by
  unfold readValue at h
  split at h
  · simp at h; simp [h.2]
  · obtain ⟨_, _, he⟩ := Option.map_eq_some_iff.1 h
    simp at he; simp [he.2]
  · simp at h; simp [h.2]
  · simp at h; simp [h.2]
  · obtain ⟨⟨ns, tail⟩, hr, he⟩ := Option.map_eq_some_iff.1 h
    simp at he
    have := length_lt_of_readItems hr
    simp [← he.2]; omega
  · simp at h

/-- The entries of an object from a key on; the closing brace ends the document. -/
def readEntries : List Token → Option (List (String × Value))
  | .text k :: .colon :: ts =>
    match h : readValue ts with
    | some (v, [.closeBrace]) => some [(String.ofList k, v)]
    | some (v, .comma :: rest) =>
      have := length_lt_of_readValue h
      (readEntries rest).map ((String.ofList k, v) :: ·)
    | _ => none
  | _ => none
termination_by ts => ts.length
decreasing_by simp_all; omega

/-- Reads a document that holds one value. -/
def readValueDocument (cs : List Char) : Option Value :=
  match (tokens cs).bind readValue with
  | some (v, []) => some v
  | _ => none

/-- Reads a document that holds a snapshot. -/
def readSnapshot (cs : List Char) : Option Snapshot :=
  match tokens cs with
  | some [.openBrace, .closeBrace] => some NameMap.empty
  | some (.openBrace :: ts) => (readEntries ts).map NameMap.ofList
  | _ => none

end Keepsake.Json
