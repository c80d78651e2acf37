import Keepsake.Number.Layout
import Keepsake.Number.Whole
import Keepsake.Text.Quoted
/-!
# Values

A `Value` is what an accessor reads and writes: a scalar or a row of numbers. Two values are the
`same` when a save file holds the same content for them, that is, floats count by their bits and
every NaN is the same as every other. `widenLike` turns integers into floats where a float is
asked for; nothing else is converted.
-/

namespace Keepsake

/-- Kinds of values. -/
inductive Kind where
  | bool | int | float | text | ints | floats
deriving DecidableEq

namespace Kind

/-- The name of a kind in messages. -/
def name : Kind → String
  | bool => "bool"
  | int => "int"
  | float => "float"
  | text => "string"
  | ints => "int array"
  | floats => "float array"

/-- Different kinds have different names. -/
theorem name_injective {a b : Kind} (h : a.name = b.name) : a = b := by
  revert h
  cases a <;> cases b <;> decide

end Kind

/-- What an accessor reads and writes. -/
inductive Value where
  | bool (b : Bool)
  | int (i : Whole)
  | float (x : Binary64)
  | text (s : String)
  | ints (is : List Whole)
  | floats (xs : List Binary64)
deriving DecidableEq

namespace Value

/-- The kind of a value. -/
def kind : Value → Kind
  | bool _ => .bool
  | int _ => .int
  | float _ => .float
  | text _ => .text
  | ints _ => .ints
  | floats _ => .floats

/-- The number that a value holds, integers as their nearest float. -/
def asFloat? : Value → Option Binary64
  | int i => some i.toBinary
  | float x => some x
  | _ => none

/-- The integer that a value holds. -/
def asInt? : Value → Option Whole
  | int i => some i
  | _ => none

/-- The text that a value holds. -/
def asText? : Value → Option String
  | text s => some s
  | _ => none

/-- Whether every float in the value is a real number. -/
def isFinite : Value → Bool
  | float x => x.isFinite
  | floats xs => xs.all Binary64.isFinite
  | _ => true

/-! ## Widening -/

/-- Turns integers into floats where `target` holds floats; any other value stays. -/
def widenLike (target : Value) : Value → Value
  | int i => match target with
    | float _ => float i.toBinary
    | _ => int i
  | ints is => match target with
    | floats _ => floats (is.map Whole.toBinary)
    | _ => ints is
  | other => other

/-- A second widening to the same target changes nothing. -/
@[simp]
theorem widenLike_widenLike (target v : Value) :
    widenLike target (widenLike target v) = widenLike target v := by
  cases v <;> cases target <;> rfl

/-- Widening either reaches the target's kind or leaves the value. -/
theorem widenLike_eq_self_or_kind (target v : Value) :
    widenLike target v = v ∨ (widenLike target v).kind = target.kind := by
  cases v <;> cases target <;> simp [widenLike, kind]

/-! ## Sameness -/

/-- Whether two rows of floats hold the same content. -/
def sameFloats : List Binary64 → List Binary64 → Bool
  | [], [] => true
  | x :: xs, y :: ys => x.same y && sameFloats xs ys
  | _, _ => false

/-- Whether two values hold the same content. -/
def same : Value → Value → Bool
  | bool a, bool b => decide (a = b)
  | int a, int b => decide (a = b)
  | float a, float b => a.same b
  | text a, text b => decide (a = b)
  | ints a, ints b => decide (a = b)
  | floats a, floats b => sameFloats a b
  | _, _ => false

@[simp]
theorem sameFloats_self (xs : List Binary64) : sameFloats xs xs = true := by
  induction xs with
  | nil => rfl
  | cons x xs ih => simp [sameFloats, ih]

@[simp]
theorem same_self (v : Value) : same v v = true := by cases v <;> simp [same]

theorem sameFloats_comm (xs ys : List Binary64) : sameFloats xs ys = sameFloats ys xs := by
  induction xs generalizing ys with
  | nil => cases ys <;> rfl
  | cons x xs ih => cases ys with
    | nil => rfl
    | cons y ys => simp [sameFloats, ih, Binary64.same_comm x y]

theorem same_comm (v w : Value) : same v w = same w v := by
  cases v <;> cases w <;>
    simp [same, sameFloats_comm, Binary64.same_comm, eq_comm]

theorem sameFloats_trans {xs ys zs : List Binary64} (hxy : sameFloats xs ys = true)
    (hyz : sameFloats ys zs = true) : sameFloats xs zs = true := by
  induction xs generalizing ys zs with
  | nil => cases ys <;> cases zs <;> simp_all [sameFloats]
  | cons x xs ih =>
    cases ys with
    | nil => simp [sameFloats] at hxy
    | cons y ys => cases zs with
      | nil => simp [sameFloats] at hyz
      | cons z zs =>
        simp only [sameFloats, Bool.and_eq_true] at hxy hyz ⊢
        exact ⟨Binary64.same_trans hxy.1 hyz.1, ih hxy.2 hyz.2⟩

theorem same_trans {u v w : Value} (huv : same u v = true) (hvw : same v w = true) :
    same u w = true := by
  cases u <;> cases v <;> simp [same] at huv <;> cases w <;> simp [same] at hvw ⊢
  · exact huv.trans hvw
  · exact huv.trans hvw
  · exact Binary64.same_trans huv hvw
  · exact huv.trans hvw
  · exact huv.trans hvw
  · exact sameFloats_trans huv hvw

/-! ## Display -/

/-- The word for a truth value. -/
def word (b : Bool) : String := if b then "true" else "false"

/-- Items between brackets. -/
def bracketed (items : List String) : String := "[" ++ String.intercalate ", " items ++ "]"

/-- A value as shown to people: texts in quotes, floats without exponent unless in a row. -/
def display : Value → String
  | bool b => word b
  | int i => i.text
  | float x => Layout.plain.render x
  | text s => quoted s
  | ints is => bracketed (is.map Whole.text)
  | floats xs => bracketed (xs.map Layout.inList.render)

/-- A value with the name of its constructor, as in structured dumps. -/
def dump : Value → String
  | bool b => "Bool(" ++ word b ++ ")"
  | int i => "Int(" ++ i.text ++ ")"
  | float x => "Float(" ++ Layout.inList.render x ++ ")"
  | text s => "Text(" ++ quoted s ++ ")"
  | ints is => "IntArray(" ++ bracketed (is.map Whole.text) ++ ")"
  | floats xs => "FloatArray(" ++ bracketed (xs.map Layout.inList.render) ++ ")"

/-! ## Values made of numbers -/

/-- The value that a number makes. -/
def ofNumber : Number → Value
  | .whole w => int w
  | .float x => float x

/-- The row that numbers make: integers if all of them are, floats otherwise. -/
def ofNumbers (ns : List Number) : Value :=
  match ns.mapM Number.toWhole? with
  | some ws => ints ws
  | none => floats (ns.map Number.toFloat)

end Value

end Keepsake
