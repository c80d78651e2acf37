import Keepsake.Text.Hex
import Keepsake.Yaml.Folding
/-!
# Plain and quoted scalars

Each reader walks the text one character at a time with the `Folding` of what it has seen, and
gives the text of the scalar with the cursor behind it. A plain scalar ends at a comment, at a
colon before a blank, at a line that is not indented enough and, inside brackets, at the
punctuation of the brackets; the blanks before its end are consumed but do not belong to it.
-/

namespace Keepsake.Yaml

/-! ## Plain scalars -/

/-- Characters that separate items inside brackets. -/
def isFlowPunctuation (c : Char) : Bool :=
  c = ',' || c = '[' || c = ']' || c = '\x7b' || c = '\x7d'

/-- A colon that ends a plain scalar stands before a blank. -/
def endsKey : List Char → Bool
  | ':' :: rest => startsBlank rest
  | _ => false

/-- Inside brackets a colon directly before punctuation is an error. -/
def misplacedColon : List Char → Bool
  | ':' :: c :: _ => isFlowPunctuation c || c = '?'
  | _ => false

/--
Reads a plain scalar on from the text `f`. `inFlow` tells whether it stands inside brackets, and a
line of it starts at column `indent` at the least otherwise. The last part of the answer tells
whether it ended behind a line break.
-/
def scanPlain (inFlow : Bool) (indent : Int) (f : Folding) (m : Mark) :
    List Char → Option (List Char × Cursor × Bool)
  | [] => some (f.result, ⟨[], m⟩, f.broken)
  | '\r' :: '\n' :: rest => scanPlain inFlow indent (f.lineBreak '\n') (m.newLine 2) rest
  | c :: rest =>
    if isBreak c then scanPlain inFlow indent (f.lineBreak c) (m.newLine 1) rest
    else if isBlank c then
      if f.broken ∧ (m.column : Int) < indent ∧ c = '\t' then none
      else scanPlain inFlow indent (f.blank c) (m.forward 1) rest
    else if (f.isPending ∧ !inFlow ∧ (m.column : Int) < indent) ∨
        (m.column = 0 ∧ startsMarker (c :: rest)) ∨ (c = '#' ∧ f.isPending) then
      some (f.result, ⟨c :: rest, m⟩, f.broken)
    else if inFlow ∧ misplacedColon (c :: rest) then none
    else if endsKey (c :: rest) ∨ (inFlow ∧ isFlowPunctuation c) then
      some (f.result, ⟨c :: rest, m⟩, f.broken)
    else scanPlain inFlow indent (f.push c) (m.forward 1) rest

/-! ## Single-quoted scalars -/

/-- Reads a single-quoted scalar on, up to its closing quote. -/
def scanSingle (f : Folding) (m : Mark) : List Char → Option (List Char × Cursor)
  | [] => none
  | '\r' :: '\n' :: rest => scanSingle (f.lineBreak '\n') (m.newLine 2) rest
  | '\'' :: '\'' :: rest => scanSingle (f.push '\'') (m.forward 2) rest
  | c :: rest =>
    if m.column = 0 ∧ startsMarker (c :: rest) then none
    else if c = '\'' then some (f.settle.result, ⟨rest, m.forward 1⟩)
    else if isBreak c then scanSingle (f.lineBreak c) (m.newLine 1) rest
    else if isBlank c then scanSingle (f.blank c) (m.forward 1) rest
    else scanSingle (f.push c) (m.forward 1) rest

/-- A quote that no other follows closes a single-quoted scalar. -/
theorem scanSingle_quote {f : Folding} {m : Mark} {rest : List Char}
    (h : rest.head? ≠ some '\'') :
    scanSingle f m ('\'' :: rest) = some (f.settle.result, ⟨rest, m.forward 1⟩) := by
  cases rest with
  | nil => simp [scanSingle, startsMarker]
  | cons d rest =>
    have hd : d ≠ '\'' := fun h' => h (congrArg some h')
    rw [scanSingle]
    · simp [startsMarker]
    · simp
    · exact fun _ _ h' => hd (List.cons.inj h').1

/-! ## Double-quoted scalars -/

/-- What an escape letter stands for. -/
def escapeLetter? : Char → Option Char
  | '0' => some (Char.ofNat 0)
  | 'a' => some (Char.ofNat 0x07)
  | 'b' => some (Char.ofNat 0x08)
  | 't' => some '\t'
  | '\t' => some '\t'
  | 'n' => some '\n'
  | 'v' => some (Char.ofNat 0x0B)
  | 'f' => some (Char.ofNat 0x0C)
  | 'r' => some '\r'
  | 'e' => some (Char.ofNat 0x1B)
  | ' ' => some ' '
  | '"' => some '"'
  | '/' => some '/'
  | '\\' => some '\\'
  | 'N' => some '\u0085'
  | '_' => some '\u00a0'
  | 'L' => some '\u2028'
  | 'P' => some '\u2029'
  | _ => none

/-- How many digits to base sixteen follow an escape letter. -/
def escapeWidth? : Char → Option Nat
  | 'x' => some 2
  | 'u' => some 4
  | 'U' => some 8
  | _ => none

/-- Where the reader of a double-quoted scalar stands. -/
inductive EscapeState where
  | none
  /-- behind a backslash -/
  | backslash
  /-- inside a numeric escape: digits to come and the number so far -/
  | hex (digits : Nat) (value : Nat)
deriving DecidableEq

/-- Reads a double-quoted scalar on, up to its closing quote. -/
def scanDouble (f : Folding) (m : Mark) : EscapeState → List Char → Option (List Char × Cursor)
  | _, [] => none
  | .none, '\r' :: '\n' :: rest => scanDouble (f.lineBreak '\n') (m.newLine 2) .none rest
  | .none, c :: rest =>
    if m.column = 0 ∧ startsMarker (c :: rest) then none
    else if c = '"' then some (f.settle.result, ⟨rest, m.forward 1⟩)
    else if c = '\\' then scanDouble f.settle (m.forward 1) .backslash rest
    else if isBreak c then scanDouble (f.lineBreak c) (m.newLine 1) .none rest
    else if isBlank c then scanDouble (f.blank c) (m.forward 1) .none rest
    else scanDouble (f.push c) (m.forward 1) .none rest
  | .backslash, '\r' :: '\n' :: rest => scanDouble f.escapedBreak (m.newLine 2) .none rest
  | .backslash, c :: rest =>
    if isBreak c then scanDouble f.escapedBreak (m.newLine 1) .none rest
    else match escapeLetter? c, escapeWidth? c with
      | some e, _ => scanDouble (f.push e) (m.forward 1) .none rest
      | none, some width => scanDouble f (m.forward 1) (.hex width 0) rest
      | none, none => none
  | .hex digits value, c :: rest =>
    match hexValue? c with
    | none => none
    | some d =>
      let value := 16 * value + d
      if digits ≤ 1 then
        match charOfNat? value with
        | some e => scanDouble (f.push e) (m.forward 1) .none rest
        | none => none
      else scanDouble f (m.forward 1) (.hex (digits - 1) value) rest

/-- A quote outside an escape closes a double-quoted scalar. -/
theorem scanDouble_quote {f : Folding} {m : Mark} (rest : List Char) :
    scanDouble f m .none ('"' :: rest) = some (f.settle.result, ⟨rest, m.forward 1⟩) := by
  rw [scanDouble]
  · simp [startsMarker]
  · simp

end Keepsake.Yaml
