/-!
# Characters of YAML

The classes of characters that the grammar names, and the place of a character in the text. Five
characters break a line; a carriage return with the line feed after it is one break.
-/

namespace Keepsake.Yaml

/-- Whether a character may stand in a document at all. -/
def isAllowed (c : Char) : Bool :=
  let n := c.toNat
  n = 0x09 || n = 0x0A || n = 0x0D || (0x20 ≤ n && n ≤ 0x7E) || n = 0x85 || (0xA0 ≤ n && n ≤ 0xD7FF) ||
    (0xE000 ≤ n && n ≤ 0xFFFD) || 0x10000 ≤ n

/-- Whether a character breaks a line. -/
def isBreak (c : Char) : Bool :=
  c = '\n' || c = '\r' || c = '\u0085' || c = '\u2028' || c = '\u2029'

/-- A blank or a tab. -/
def isBlank (c : Char) : Bool := c = ' ' || c = '\t'

/-- Letters, digits, `-` and `_`: the characters of anchors, handles and directive names. -/
def isWordChar (c : Char) : Bool := c.isAlphanum || c = '-' || c = '_'

/-- Whether a text is at its end or starts with a blank or a line break. -/
def startsBlank : List Char → Bool
  | [] => true
  | c :: _ => isBlank c || isBreak c

/-- Whether a text is at its end or starts with a line break. -/
def startsBreak : List Char → Bool
  | [] => true
  | c :: _ => isBreak c

/--
What a line break leaves in a text: the two separators stay, every other break is a line feed.
-/
def breakChar (c : Char) : Char := if c = '\u2028' ∨ c = '\u2029' then c else '\n'

/-- Whether a line starts with `---` or `...` standing alone. -/
def startsMarker : List Char → Bool
  | '-' :: '-' :: '-' :: rest => startsBlank rest
  | '.' :: '.' :: '.' :: rest => startsBlank rest
  | _ => false

/-- The place of a character: its line, its column in the line, and its index in the text. -/
structure Mark where
  line : Nat
  column : Nat
  index : Nat
deriving DecidableEq, Repr

namespace Mark

/-- The start of a text. -/
def start : Mark := ⟨0, 0, 0⟩

/-- The place after `n` characters of the same line. -/
def forward (m : Mark) (n : Nat) : Mark := ⟨m.line, m.column + n, m.index + n⟩

/-- The place after a line break of `n` characters. -/
def newLine (m : Mark) (n : Nat) : Mark := ⟨m.line + 1, 0, m.index + n⟩

end Mark

/-- What is left of a text, and the place where it starts. -/
structure Cursor where
  rest : List Char
  mark : Mark
deriving DecidableEq

namespace Cursor

/-- The cursor after `n` characters of the same line. -/
def forward (c : Cursor) (n : Nat) : Cursor := ⟨c.rest.drop n, c.mark.forward n⟩

/-- The cursor after the characters of the line that satisfy `p`. -/
def skipWhile (p : Char → Bool) (c : Cursor) : Cursor :=
  ⟨c.rest.dropWhile p, c.mark.forward (c.rest.takeWhile p).length⟩

/-- The cursor after a line break, if it is at one. -/
def skipBreak (c : Cursor) : Cursor :=
  match c.rest with
  | '\r' :: '\n' :: rest => ⟨rest, c.mark.newLine 2⟩
  | b :: rest => if isBreak b then ⟨rest, c.mark.newLine 1⟩ else c
  | [] => c

/-- The cursor after a comment, if it is at one. -/
def skipComment (c : Cursor) : Cursor :=
  match c.rest with
  | '#' :: _ => c.skipWhile (fun x => !isBreak x)
  | _ => c

/-- The rest of a line that may hold only blanks and a comment, with its line break. -/
def endLine (c : Cursor) : Option Cursor :=
  let c := (c.skipWhile isBlank).skipComment
  if startsBreak c.rest then some c.skipBreak else none

end Cursor

end Keepsake.Yaml
