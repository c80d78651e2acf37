import Keepsake.Variable
/-!
# Cells

A cell is a variable in memory that keeps the kind of its first value: a value of another kind is
refused, except that integers are widened into a cell of floats. A cell whose writer panicked is
poisoned and answers no more. Cells have no fields.
-/

namespace Keepsake

/-- A variable in memory. -/
structure Cell where
  value : Value
  poisoned : Bool
deriving DecidableEq

namespace Cell

/-- A new cell. -/
def ofValue (v : Value) : Cell := ⟨v, false⟩

/-- The failure of a poisoned cell. -/
def poisonedFailure : AccessFailure := .unavailable "value lock poisoned"

/-- Reads a cell. -/
def load (c : Cell) : Attempt Value := if c.poisoned then .fail poisonedFailure else .ok c.value

/-- Writes a cell. -/
def store (v : Value) (c : Cell) : Attempt Unit × Cell :=
  if c.poisoned then (.fail poisonedFailure, c)
  else
    let v := Value.widenLike c.value v
    if c.value.kind = v.kind then (.ok (), { c with value := v })
    else (.fail (.typeMismatch c.value.kind.name v.kind.name), c)

/-- A cell as in structured dumps. -/
def dump (c : Cell) : String :=
  if c.poisoned then "SharedValue(<poisoned>)" else "SharedValue(" ++ c.value.dump ++ ")"

/-- A cell as a variable. -/
def asVariable : Variable Cell where
  value c := (c.load, c)
  setValue := store
  field name c := (.fail (.unknownField name), c)
  setField name _ c := (.fail (.unknownField name), c)

/-- A cell as an accessor of its own. -/
def accessor : Accessor Cell := Accessor.direct asVariable

end Cell

end Keepsake
