import Keepsake.Variable.Cell
import Keepsake.Variable.Record
/-!
# Shelves

A shelf holds cells and records by number. A number that is given to two names makes them share
what stands there.
-/

namespace Keepsake

/-- A cell or a record. -/
inductive Content where
  | cell (c : Cell)
  | record (r : Record)
deriving DecidableEq

/-- Contents by number. -/
abbrev Shelf := List Content

namespace Shelf

/-- The failure of a number under which nothing stands. -/
def missing : AccessFailure := .unavailable "no such variable"

/-- An operation on what stands under a number. -/
def on {α : Type} (n : Nat) (onCell : Cell → Attempt α × Cell)
    (onRecord : Record → Attempt α × Record) (s : Shelf) : Attempt α × Shelf :=
  match s[n]? with
  | some (.cell c) => match onCell c with
    | (a, c) => (a, s.set n (.cell c))
  | some (.record r) => match onRecord r with
    | (a, r) => (a, s.set n (.record r))
  | none => (.fail missing, s)

/-- The variable under a number. -/
def asVariable (n : Nat) : Variable Shelf where
  value := on n Cell.asVariable.value Record.asVariable.value
  setValue v := on n (Cell.asVariable.setValue v) (Record.asVariable.setValue v)
  field name := on n (Cell.asVariable.field name) (Record.asVariable.field name)
  setField name v := on n (Cell.asVariable.setField name v) (Record.asVariable.setField name v)

end Shelf

end Keepsake
