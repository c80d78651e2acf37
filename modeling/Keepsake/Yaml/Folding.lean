import Keepsake.Yaml.Chars
/-!
# Folding of line breaks inside a scalar

The blanks and breaks between two characters of a plain or quoted scalar are held back until it is
clear what they become. Blanks on one line stay as they are. Of several breaks the first becomes a
blank if it is a line feed and stands alone, nothing if others follow, and stays if it is a line
or paragraph separator; blanks around breaks are lost.
-/

namespace Keepsake.Yaml

/-- The text of a scalar so far and the blanks and breaks held back, the last character first. -/
structure Folding where
  text : List Char
  blanks : List Char
  /-- whether a line break is held back -/
  broken : Bool
  /-- the first break; `none` if it was escaped -/
  first : Option Char
  more : List Char
deriving DecidableEq

namespace Folding

/-- Nothing read yet. -/
def start : Folding := ⟨[], [], false, none, []⟩

/-- Whether blanks or breaks are held back. -/
def isPending (f : Folding) : Bool := f.broken || !f.blanks.isEmpty

/-- Holds a blank back; after a break it is lost. -/
def blank (f : Folding) (c : Char) : Folding :=
  if f.broken then f else { f with blanks := c :: f.blanks }

/-- Holds a line break back; the blanks before it are lost. -/
def lineBreak (f : Folding) (c : Char) : Folding :=
  if f.broken then { f with more := breakChar c :: f.more }
  else { f with blanks := [], broken := true, first := some (breakChar c) }

/-- Holds an escaped line break back. -/
def escapedBreak (f : Folding) : Folding := { f with blanks := [], broken := true, first := none }

/-- Settles what the held back characters become. -/
def settle (f : Folding) : Folding :=
  if f.broken then
    let folded :=
      if f.first = some '\n' then if f.more.isEmpty then [' '] else f.more
      else f.more ++ f.first.toList
    ⟨folded ++ f.text, [], false, none, []⟩
  else { f with text := f.blanks ++ f.text, blanks := [] }

/-- Adds a character of the text. -/
def push (f : Folding) (c : Char) : Folding :=
  let f := f.settle
  { f with text := c :: f.text }

/-- The text in reading order; what is held back is dropped. -/
def result (f : Folding) : List Char := f.text.reverse

end Folding

end Keepsake.Yaml
