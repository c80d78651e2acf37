import Keepsake.Text.Blank
import Keepsake.Text.Columns
/-!
# Width of a text in terminal columns

Controls and marks take no column, East Asian wide characters take two, all others one.
-/

namespace Keepsake

/-- The columns that one character takes. -/
def charWidth (c : Char) : Nat :=
  let n := c.toNat
  if n < 0x20 then 0
  else if n < 0x7F then 1
  else if n < 0xA0 then 0
  else if inRanges zeroColumnRanges n then 0
  else if inRanges twoColumnRanges n then 2
  else 1

/-- The columns that characters take on one line. -/
def charsWidth : List Char → Nat
  | [] => 0
  | c :: cs => charWidth c + charsWidth cs

/-- The columns that a text takes on one line. -/
def textWidth (s : String) : Nat := charsWidth s.toList

theorem charsWidth_append (cs ds : List Char) :
    charsWidth (cs ++ ds) = charsWidth cs + charsWidth ds := by
  induction cs with
  | nil => simp [charsWidth]
  | cons c cs ih => rw [List.cons_append, charsWidth, charsWidth, ih, Nat.add_assoc]

/-- A row of blanks takes a column for each. -/
theorem charsWidth_blanks (n : Nat) : charsWidth (List.replicate n ' ') = n := by
  induction n with
  | zero => rfl
  | succ n ih =>
    rw [List.replicate_succ, charsWidth, ih, show charWidth ' ' = 1 from rfl, Nat.add_comm]

end Keepsake
