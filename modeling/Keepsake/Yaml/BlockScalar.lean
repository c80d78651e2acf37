import Keepsake.Yaml.Folding
/-!
# Literal and folded scalars

A block scalar has a header line (how its last line breaks are kept, and perhaps its indentation)
and then lines that are indented deeper than what encloses it. Its body is read one character at a
time: a line is either still being indented or already being read.
-/

namespace Keepsake.Yaml

/-- What becomes of the line breaks at the end of a block scalar. -/
inductive Chomp where
  /-- none is kept -/
  | strip
  /-- the first is kept -/
  | clip
  /-- all are kept -/
  | keep
deriving DecidableEq

/-- The header of a block scalar. -/
structure BlockHeader where
  chomp : Chomp
  /-- the indentation relative to what encloses the scalar, if it is given -/
  increment : Option Nat
deriving DecidableEq

namespace BlockHeader

/-- A sign of the header. -/
def chomp? : Char → Option Chomp
  | '+' => some .keep
  | '-' => some .strip
  | _ => none

/-- An indentation of the header: a digit from one to nine. -/
def increment? (c : Char) : Option Nat :=
  if '1' ≤ c ∧ c ≤ '9' then some (c.toNat - '0'.toNat) else none

/-- The header at the front of a text, and how many characters it has. -/
def read : List Char → BlockHeader × Nat
  | [] => (⟨.clip, none⟩, 0)
  | a :: rest =>
    let second := rest.head?
    match chomp? a, increment? a with
    | some chomp, _ => match second.bind increment? with
      | some n => (⟨chomp, some n⟩, 2)
      | none => (⟨chomp, none⟩, 1)
    | none, some n => match second.bind chomp? with
      | some chomp => (⟨chomp, some n⟩, 2)
      | none => (⟨.clip, some n⟩, 1)
    | none, none => (⟨.clip, none⟩, 0)

end BlockHeader

/-- The body of a block scalar so far; of characters and breaks, the last is first. -/
structure BlockBody where
  text : List Char
  /-- the break behind the last line -/
  leading : Option Char
  /-- the breaks of the empty lines after it -/
  trailing : List Char
  /-- whether the last line starts with a blank -/
  blankStart : Bool
  /-- the indentation, once it is known -/
  indent : Option Nat
  /-- the deepest indentation among the empty lines before it is known -/
  deepest : Nat
deriving DecidableEq

namespace BlockBody

/-- Whether a column is still before the text of a line. -/
def isBefore (b : BlockBody) (column : Nat) : Bool :=
  match b.indent with
  | none => true
  | some n => decide (column < n)

/-- Adds an empty line. -/
def emptyLine (b : BlockBody) (br : Char) (column : Nat) : BlockBody :=
  { b with trailing := breakChar br :: b.trailing, deepest := max b.deepest column }

/-- Settles the indentation at the first line that is not empty. -/
def settleIndent (b : BlockBody) (enclosing : Int) (column : Nat) : BlockBody :=
  match b.indent with
  | some _ => b
  | none => { b with indent := some (max (max b.deepest column) (max (enclosing + 1).toNat 1)) }

/--
Starts a line with its first character. In a folded scalar a line feed between two lines that
start with no blank becomes a blank, or nothing if empty lines follow it.
-/
def startLine (folded : Bool) (b : BlockBody) (c : Char) : BlockBody :=
  let joint :=
    if folded ∧ b.leading = some '\n' ∧ !b.blankStart ∧ !isBlank c then
      if b.trailing.isEmpty then [' '] else []
    else b.leading.toList
  { b with
    text := c :: (b.trailing ++ (joint ++ b.text))
    leading := none
    trailing := []
    blankStart := isBlank c }

/-- Adds a character to the line. -/
def push (b : BlockBody) (c : Char) : BlockBody := { b with text := c :: b.text }

/-- Ends the line. -/
def endLine (b : BlockBody) (br : Char) : BlockBody := { b with leading := some (breakChar br) }

/-- The whole text, in reading order. -/
def result (chomp : Chomp) (b : BlockBody) : List Char :=
  match chomp with
  | .strip => b.text.reverse
  | .clip => (b.leading.toList ++ b.text).reverse
  | .keep => (b.trailing ++ (b.leading.toList ++ b.text)).reverse

/--
Reads the body on. `inLine` tells whether the indentation of the present line is behind;
`enclosing` is the column of what encloses the scalar, `-1` at the top.
-/
def read (folded : Bool) (enclosing : Int) (b : BlockBody) (m : Mark) (inLine : Bool) :
    List Char → Option (BlockBody × Cursor)
  | [] => some (b, ⟨[], m⟩)
  | '\r' :: '\n' :: rest =>
    read folded enclosing (if inLine then b.endLine '\n' else b.emptyLine '\n' m.column) (m.newLine 2)
      false rest
  | c :: rest =>
    if isBreak c then
      read folded enclosing (if inLine then b.endLine c else b.emptyLine c m.column) (m.newLine 1)
        false rest
    else if inLine then read folded enclosing (b.push c) (m.forward 1) true rest
    else if b.isBefore m.column ∧ c = ' ' then read folded enclosing b (m.forward 1) false rest
    else if b.isBefore m.column ∧ c = '\t' then none
    else
      let b := b.settleIndent enclosing m.column
      if b.indent = some m.column then
        read folded enclosing (b.startLine folded c) (m.forward 1) true rest
      else some (b, ⟨c :: rest, m⟩)

/-- The body before its first line. -/
def start (header : BlockHeader) (enclosing : Int) : BlockBody where
  text := []
  leading := none
  trailing := []
  blankStart := false
  indent := header.increment.map fun n => n + enclosing.toNat
  deepest := 0

end BlockBody

/-- Reads a block scalar behind its `|` or `>`; gives its text and the cursor behind it. -/
def scanBlock (folded : Bool) (enclosing : Int) (c : Cursor) : Option (List Char × Cursor) := do
  let (header, width) := BlockHeader.read c.rest
  let c ← (c.forward width).endLine
  let (body, c) ← BlockBody.read folded enclosing (.start header enclosing) c.mark false c.rest
  some (body.result header.chomp, c)

end Keepsake.Yaml
