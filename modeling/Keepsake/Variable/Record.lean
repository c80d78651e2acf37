import Keepsake.NameMap
import Keepsake.Variable
/-!
# Records

A record is a variable with fields. It counts how often it is read and remembers what it received,
and it can be told to fail or to panic when it is read or written. A strict record refuses values
of another kind than the present one; a counting one adds one to its integer before it is read.
-/

namespace Keepsake

/-- What happens instead of reading or writing. -/
inductive Trouble where
  | fail (f : AccessFailure)
  | panic (p : Panic)
deriving DecidableEq

/-- The outcome of a trouble. -/
def Trouble.outcome {α : Type} : Trouble → Attempt α
  | fail f => .fail f
  | panic p => .panic p

/-- A variable with fields. -/
structure Record where
  value : Value
  fields : NameMap Value
  strict : Bool
  counting : Bool
  readTrouble : Option Trouble
  writeTrouble : Option Trouble
  /-- how often it was read -/
  reads : Nat
  /-- the values it received, the last first -/
  received : List Value
deriving DecidableEq

namespace Record

/-- Adds one to an integer. -/
def next (v : Value) : Value :=
  match v with
  | .int i => match Whole.ofInt? (i.1 + 1) with
    | some j => .int j
    | none => v
  | _ => v

/-- Reads what `look` finds. -/
def readBy (look : Record → Attempt Value × Record) (r : Record) : Attempt Value × Record :=
  let r := { r with reads := r.reads + 1 }
  match r.readTrouble with
  | some t => (t.outcome, r)
  | none => look r

/-- Writes a value over `current` with `put`. -/
def writeBy (current : Value) (put : Record → Record) (v : Value) (r : Record) :
    Attempt Unit × Record :=
  let r := { r with received := v :: r.received }
  match r.writeTrouble with
  | some t => (t.outcome, r)
  | none =>
    if r.strict ∧ current.kind ≠ v.kind then (.fail (.typeMismatch current.kind.name v.kind.name), r)
    else (.ok (), put r)

/-- A record as a variable. -/
def asVariable : Variable Record where
  value := readBy fun r =>
    let r := if r.counting then { r with value := next r.value } else r
    (.ok r.value, r)
  setValue v r := writeBy r.value (fun r => { r with value := v }) v r
  field name := readBy fun r => match r.fields.get? name with
    | some v => (.ok v, r)
    | none => (.fail (.unknownField name), r)
  setField name v r := match r.fields.get? name with
    | some current => writeBy current (fun r => { r with fields := r.fields.insert name v }) v r
    | none => (.fail (.unknownField name), r)

end Record

end Keepsake
