import Keepsake.Text.Width
/-!
# Tables of text

A table is drawn with `+`, `-` and `|`. A cell may have several lines; its text stands at the left
and at the top, with a blank on either side. A column is as wide as its widest line, a row as high
as its highest cell.
-/

namespace Keepsake.Table

/-- The lines of a cell. -/
def cellLines (s : String) : List String := (s.toList.splitOn '\n').map String.ofList

/-- The columns that a cell takes. -/
def cellWidth (s : String) : Nat := ((cellLines s).map textWidth).foldl max 0

/-- The greater of two widths, column by column. -/
def mergeWidths : List Nat → List Nat → List Nat
  | [], bs => bs
  | as, [] => as
  | a :: as, b :: bs => max a b :: mergeWidths as bs

/-- The widths of the columns of some rows. -/
def columnWidths (rows : List (List String)) : List Nat :=
  rows.foldl (fun widths row => mergeWidths widths (row.map cellWidth)) []

/-- A text, filled up with blanks to a width. -/
def padded (width : Nat) (s : String) : String :=
  s ++ String.ofList (List.replicate (width - textWidth s) ' ')

/-- The line between two rows. -/
def border (widths : List Nat) : String :=
  "+" ++ String.join (widths.map fun w => String.ofList (List.replicate (w + 2) '-') ++ "+")

/-- One line of a row, from the texts in its cells. -/
def rowLine (widths : List Nat) (texts : List String) : String :=
  "|" ++ String.join ((widths.zip texts).map fun c => " " ++ padded c.1 c.2 ++ " |")

/-- The lines of a row. -/
def rowLines (widths : List Nat) (row : List String) : List String :=
  let cells := row.map cellLines
  let height := (cells.map List.length).foldl max 0
  (List.range height).map fun i => rowLine widths (cells.map fun lines => lines.getD i "")

/-- The lines of a table. -/
def lines (rows : List (List String)) : List String :=
  let widths := columnWidths rows
  border widths :: rows.flatMap fun row => rowLines widths row ++ [border widths]

/-- No line of a filled up text falls short of its width. -/
theorem textWidth_padded (width : Nat) (s : String) :
    textWidth (padded width s) = max width (textWidth s) := by
  simp only [padded, textWidth, String.toList_append, String.toList_ofList, charsWidth_append,
    charsWidth_blanks]
  omega

end Keepsake.Table
