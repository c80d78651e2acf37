import Keepsake.Outcome
import Keepsake.Value
/-!
# Variables and accessors

A variable has a value and perhaps fields. An accessor is what an engine sees of it under one key:
a way to read and a way to write. `ω` is the state of all variables; reading may change it too.

An accessor widens: integers that are to be written where floats stand are turned into floats
first. Only integers can need it, so for other values the variable is not read.
-/

namespace Keepsake

/-- A variable; the last component of an answer is the state of all variables after it. -/
structure Variable (ω : Type) where
  value : ω → Attempt Value × ω
  setValue : Value → ω → Attempt Unit × ω
  field : String → ω → Attempt Value × ω
  setField : String → Value → ω → Attempt Unit × ω

/-- What is read and written under one key. -/
structure Accessor (ω : Type) where
  get : ω → Attempt Value × ω
  set : Value → ω → Attempt Unit × ω

variable {ω : Type}

/-- The field that stands for the value itself. -/
def valueField : String := "VAL"

namespace Value

/-- Whether a value consists of integers. -/
def isWhole : Value → Bool
  | int _ => true
  | ints _ => true
  | _ => false

end Value

/--
Widens a value to what `current` reads, and writes it with `write`. A failed reading leaves the
value as it is; a panic stops.
-/
def widenAndWrite (current : ω → Attempt Value × ω) (write : Value → ω → Attempt Unit × ω)
    (v : Value) (s : ω) : Attempt Unit × ω :=
  if v.isWhole then
    match current s with
    | (.ok target, s) => write (Value.widenLike target v) s
    | (.fail _, s) => write v s
    | (.panic p, s) => (.panic p, s)
  else write v s

section WidenAndWrite

variable {current : ω → Attempt Value × ω} {write : Value → ω → Attempt Unit × ω} {v : Value}
variable {s : ω}

theorem widenAndWrite_of_not_whole (h : v.isWhole = false) :
    widenAndWrite current write v s = write v s := by
  simp [widenAndWrite, h]

theorem widenAndWrite_of_ok (h : v.isWhole = true) {target : Value} {s' : ω}
    (hcurrent : current s = (.ok target, s')) :
    widenAndWrite current write v s = write (Value.widenLike target v) s' := by
  simp [widenAndWrite, h, hcurrent]

theorem widenAndWrite_of_fail (h : v.isWhole = true) {e : AccessFailure} {s' : ω}
    (hcurrent : current s = (.fail e, s')) : widenAndWrite current write v s = write v s' := by
  simp [widenAndWrite, h, hcurrent]

theorem widenAndWrite_of_panic (h : v.isWhole = true) {p : Panic} {s' : ω}
    (hcurrent : current s = (.panic p, s')) :
    widenAndWrite current write v s = (.panic p, s') := by
  simp [widenAndWrite, h, hcurrent]

end WidenAndWrite

namespace Accessor

/-- The accessor of a variable's value. -/
def ofValue (x : Variable ω) : Accessor ω where
  get := x.value
  set := widenAndWrite x.value x.setValue

/-- The accessor of a field. -/
def ofField (x : Variable ω) (field : String) : Accessor ω where
  get := x.field field
  set := widenAndWrite (x.field field) (x.setField field)

/-- The accessor of a field or, without one, of the value. -/
def of (x : Variable ω) : Option String → Accessor ω
  | none => ofValue x
  | some field => if field = valueField then ofValue x else ofField x field

/-- The accessor that reads and writes a variable's value without widening. -/
def direct (x : Variable ω) : Accessor ω := ⟨x.value, x.setValue⟩

@[simp]
theorem get_ofValue (x : Variable ω) : (ofValue x).get = x.value := rfl

@[simp]
theorem set_ofValue (x : Variable ω) : (ofValue x).set = widenAndWrite x.value x.setValue := rfl

@[simp]
theorem get_ofField (x : Variable ω) (field : String) : (ofField x field).get = x.field field := rfl

@[simp]
theorem set_ofField (x : Variable ω) (field : String) :
    (ofField x field).set = widenAndWrite (x.field field) (x.setField field) := rfl

end Accessor

end Keepsake
