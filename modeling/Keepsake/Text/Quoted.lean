import Keepsake.Text.Blank
import Keepsake.Text.Hex
import Keepsake.Text.Invisible
/-!
# Text shown in quotes

A text is shown between double quotes. The quote and the backslash are escaped, four controls have
an escape letter, and every other character that does not show on its own is given by its number
in braces.
-/

namespace Keepsake

/-- Whether a character shows on its own. -/
def isVisible (c : Char) : Bool :=
  if c.toNat < 0x7F then decide (0x20 ≤ c.toNat) else !inRanges invisibleRanges c.toNat

/-- One character inside the quotes. -/
def quotedChar (c : Char) : List Char :=
  if c = '"' ∨ c = '\\' then ['\\', c]
  else if c = '\n' then ['\\', 'n']
  else if c = '\r' then ['\\', 'r']
  else if c = '\t' then ['\\', 't']
  else if c = Char.ofNat 0 then ['\\', '0']
  else if isVisible c then [c]
  else ['\\', 'u', '\x7b'] ++ hexDigits c.toNat ++ ['\x7d']

/-- A text between quotes. -/
def quotedChars (cs : List Char) : List Char := '"' :: (cs.flatMap quotedChar ++ ['"'])

/-- A text between quotes, as a string. -/
def quoted (s : String) : String := String.ofList (quotedChars s.toList)

end Keepsake
