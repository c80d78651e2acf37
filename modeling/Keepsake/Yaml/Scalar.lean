import Keepsake.Number.Whole
import Keepsake.Value
/-!
# What a YAML scalar stands for

A plain scalar without a tag is read by its form: as nothing, a boolean, an integer, a float, or
else a text. Integers have four bases; one that needs more than 64 but at most 128 bits is
refused, and one that needs more is a float. A decimal integer with a leading zero is a text. The
tags of the core schema force one of the readings; a local tag, one that starts with `!`, is
refused.
-/

namespace Keepsake.Yaml

/-! ## Forms of plain scalars -/

/-- Whether a text stands for nothing. -/
def isNullWord (cs : List Char) : Bool :=
  ["null", "Null", "NULL", "~"].any fun w => w.toList = cs

/-- The boolean that a text stands for. -/
def boolWord? (cs : List Char) : Option Bool :=
  if ["true", "True", "TRUE"].any fun w => w.toList = cs then some true
  else if ["false", "False", "FALSE"].any fun w => w.toList = cs then some false
  else none

/-- The digits of a text behind its sign, if it has one. -/
def dropSign : List Char → List Char
  | '-' :: cs => cs
  | '+' :: cs => cs
  | cs => cs

/-- Whether a text is a row of digits with a superfluous zero in front. -/
def hasLeadingZero (cs : List Char) : Bool :=
  match dropSign cs with
  | '0' :: d :: ds => (d :: ds).all Char.isDigit
  | _ => false

/-- The value of a digit in a base up to sixteen. -/
def digitOf? (base : Nat) (c : Char) : Option Nat :=
  let n := c.toNat
  let d :=
    if 0x30 ≤ n ∧ n ≤ 0x39 then n - 0x30
    else if 0x61 ≤ n ∧ n ≤ 0x66 then n - 0x61 + 10
    else if 0x41 ≤ n ∧ n ≤ 0x46 then n - 0x41 + 10
    else base
  if d < base then some d else none

/-- The number that a row of digits stands for; there is at least one. -/
def digitsOf? (base : Nat) (cs : List Char) : Option Nat :=
  if cs.isEmpty then none
  else cs.foldlM (fun n c => (digitOf? base c).map (base * n + ·)) 0

/-- Reads a natural number in any of the bases. -/
def readMagnitude (cs : List Char) : Option Nat :=
  match cs with
  | '0' :: 'x' :: rest => digitsOf? 16 rest
  | '0' :: 'o' :: rest => digitsOf? 8 rest
  | '0' :: 'b' :: rest => digitsOf? 2 rest
  | _ => if hasLeadingZero cs then none else digitsOf? 10 cs

/-- Reads an integer: a sign and a magnitude. -/
def readInteger : List Char → Option Int
  | '-' :: cs => (readMagnitude cs).map fun n => -(n : Int)
  | '+' :: cs => (readMagnitude cs).map Int.ofNat
  | cs => (readMagnitude cs).map Int.ofNat

/-- Reads a float: an infinity, a NaN, or a decimal number within the range of floats. -/
def readFloat (cs : List Char) : Option Binary64 :=
  let isWord (ws : List String) (cs : List Char) : Bool := ws.any fun w => w.toList = cs
  let unsigned (cs : List Char) : Option Binary64 :=
    match Decimal.readBinary cs with
    | some x => if x.isFinite then some x else none
    | none => none
  if isWord [".inf", ".Inf", ".INF", "+.inf", "+.Inf", "+.INF"] cs then some (Binary64.infinity false)
  else if isWord ["-.inf", "-.Inf", "-.INF"] cs then some (Binary64.infinity true)
  else if isWord [".nan", ".NaN", ".NAN"] cs then some Binary64.nan
  else unsigned cs

/-- What a scalar stands for, by its form. -/
inductive Form where
  | nothing
  | bool (b : Bool)
  | number (n : Number)
  /-- an integer too wide for a value -/
  | tooWide
  | text
deriving DecidableEq

namespace Form

/-- What an integer makes; `none` if it needs more than 128 bits. -/
def ofInteger? (i : Int) : Option Form :=
  match Whole.ofInt? i with
  | some w => some (number (.whole w))
  | none =>
    if 0 ≤ i ∧ i < wordSpan then some (number (.float (Binary64.ofInt i)))
    else if -doubleWordSpan ≤ 2 * i ∧ i < doubleWordSpan then some tooWide
    else none

/-- The integer that a text stands for. -/
def integer? (cs : List Char) : Option Form := (readInteger cs).bind ofInteger?

/-- The form of a plain scalar. -/
def ofPlain (cs : List Char) : Form :=
  if cs.isEmpty ∨ isNullWord cs then nothing
  else match boolWord? cs with
    | some b => bool b
    | none => match integer? cs with
      | some f => f
      | none =>
        if hasLeadingZero cs then text
        else match readFloat cs with
          | some x => number (.float x)
          | none => text

end Form

/-! ## Tags -/

/-- A tag of the core schema. -/
def coreTag (name : String) : List Char := ("tag:yaml.org,2002:" ++ name).toList

/-- Whether a tag is local. -/
def isLocalTag (tag : Option (List Char)) : Bool :=
  match tag with
  | some ('!' :: _) => true
  | _ => false

/-- The form that a tag forces; `none` if the text does not have it. -/
def Form.ofTagged (tag : List Char) (cs : List Char) : Option Form :=
  if tag = coreTag "bool" then (boolWord? cs).map .bool
  else if tag = coreTag "int" then Form.integer? cs
  else if tag = coreTag "float" then (readFloat cs).map fun x => .number (.float x)
  else if tag = coreTag "null" then if isNullWord cs then some .nothing else none
  else some .text

/-- The form of a scalar. -/
def Form.ofScalar (tag : Option (List Char)) (plain : Bool) (cs : List Char) : Option Form :=
  if isLocalTag tag then none
  else match tag with
    | some t => Form.ofTagged t cs
    | none => some (if plain then Form.ofPlain cs else .text)

/-- The value of a scalar. -/
def scalarValue? (tag : Option (List Char)) (plain : Bool) (cs : List Char) : Option Value :=
  match Form.ofScalar tag plain cs with
  | some (.bool b) => some (.bool b)
  | some (.number n) => some (Value.ofNumber n)
  | some .text => some (.text (String.ofList cs))
  | _ => none

/-- The number of a scalar. -/
def scalarNumber? (tag : Option (List Char)) (plain : Bool) (cs : List Char) : Option Number :=
  match Form.ofScalar tag plain cs with
  | some (.number n) => some n
  | _ => none

end Keepsake.Yaml
