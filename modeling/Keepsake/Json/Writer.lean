import Keepsake.Json.Text
import Keepsake.Snapshot
/-!
# Values and snapshots written as JSON

Two layouts: compact, without any blank, and open, where every entry and every item stands on a
line of its own, two blanks further in than what encloses it. Floats are written with the fewest
digits that read back; the compact layout writes `null` for one that is not a real number.
-/

namespace Keepsake.Json

/--
Numbers in JSON: an exponent from `1e+16` up and below `1e-5`, and always a point or an exponent.
-/
def numberLayout : Layout where
  lowest := -5
  highest := 16
  keepPoint := true
  plusSign := true
  tie := .even
  nan := "null"
  infinity := "null"

/-- A float; `null` if it is no real number. -/
def floatChars (x : Binary64) : List Char :=
  if x.isFinite then numberLayout.chars x else "null".toList

/-- A boolean. -/
def boolChars (b : Bool) : List Char := (Value.word b).toList

/-! ## Compact layout -/

/-- Items separated by commas. -/
def commaSeparated : List (List Char) → List Char
  | [] => []
  | [x] => x
  | x :: xs => x ++ ',' :: commaSeparated xs

/-- A value without blanks. -/
def compactValue : Value → List Char
  | .bool b => boolChars b
  | .int i => i.chars
  | .float x => floatChars x
  | .text s => stringChars s.toList
  | .ints is => '[' :: (commaSeparated (is.map Whole.chars) ++ [']'])
  | .floats xs => '[' :: (commaSeparated (xs.map floatChars) ++ [']'])

/-- An object without blanks, from its keys and written values. -/
def compactObject (fields : List (String × List Char)) : List Char :=
  '\x7b' :: (commaSeparated (fields.map fun e => stringChars e.1.toList ++ ':' :: e.2) ++ ['\x7d'])

/-- A snapshot without blanks. -/
def compactSnapshot (s : Snapshot) : List Char :=
  compactObject (s.entries.map fun e => (e.1, compactValue e.2))

/-! ## Open layout -/

/-- A line feed and the blanks of a nesting depth. -/
def newLine (depth : Nat) : List Char := '\n' :: List.replicate (2 * depth) ' '

/-- Items on lines of their own, with commas between them. -/
def onLines (depth : Nat) : List (List Char) → List Char
  | [] => []
  | [x] => newLine depth ++ x
  | x :: xs => newLine depth ++ x ++ ',' :: onLines depth xs

/-- An array at a depth, its items one deeper. -/
def openArray (depth : Nat) (items : List (List Char)) : List Char :=
  if items.isEmpty then ['[', ']']
  else '[' :: (onLines (depth + 1) items ++ newLine depth ++ [']'])

/-- A value inside the object of a snapshot. -/
def openValue : Value → List Char
  | .ints is => openArray 1 (is.map Whole.chars)
  | .floats xs => openArray 1 (xs.map floatChars)
  | v => compactValue v

/-- An entry of a snapshot. -/
def openEntry (e : String × Value) : List Char :=
  stringChars e.1.toList ++ ':' :: ' ' :: openValue e.2

/-- A snapshot with an entry on each line, and a final line feed. -/
def openSnapshot (s : Snapshot) : List Char :=
  if s.entries.isEmpty then ['\x7b', '\x7d', '\n']
  else '\x7b' :: (onLines 1 (s.entries.map openEntry) ++ ['\n', '\x7d', '\n'])

end Keepsake.Json
