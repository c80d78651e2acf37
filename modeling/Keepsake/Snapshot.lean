import Keepsake.NameMap
import Keepsake.Value
/-!
# Snapshots

A snapshot is what was read of a group of variables at one moment: a map from keys to values.
Whether a new snapshot differs from the one saved last is decided by `Snapshot.changed`, which
compares the numbers of keys and then looks every key of the new one up in the old one.
-/

namespace Keepsake

/-- Values by key. -/
abbrev Snapshot := NameMap Value

namespace Snapshot

/-- Whether two snapshots have the same keys and hold the same content under each. -/
def sameEntries : List (String × Value) → List (String × Value) → Bool
  | [], [] => true
  | (k, v) :: xs, (l, w) :: ys => decide (k = l) && v.same w && sameEntries xs ys
  | _, _ => false

/-- Whether two snapshots have the same keys and hold the same content under each. -/
def same (s t : Snapshot) : Bool := sameEntries s.entries t.entries

/-- Whether a snapshot differs from the one saved last; with nothing saved yet, it does. -/
def changed (current : Snapshot) : Option Snapshot → Bool
  | none => true
  | some last =>
    decide (current.size ≠ last.size) ||
      current.entries.any fun e => match last.get? e.1 with
        | none => true
        | some v => !e.2.same v

/-- The first key whose value holds a NaN or an infinity. -/
def nonFiniteKey? (s : Snapshot) : Option String :=
  (s.entries.find? fun e => !e.2.isFinite).map (·.1)

/-- A snapshot as shown in structured dumps. -/
def dump (s : Snapshot) : String :=
  "Snapshot \x7b entries: \x7b" ++
    String.intercalate ", " (s.entries.map fun e => quoted e.1 ++ ": " ++ e.2.dump) ++ "\x7d \x7d"

end Snapshot

end Keepsake
