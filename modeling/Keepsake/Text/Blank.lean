/-!
# White space

Three different sets are in use, each named for its rule: the white space of Unicode, the ASCII
white space of one byte, and the blanks of a data format (which each format defines for itself).
-/

namespace Keepsake

/-- Ranges of the Unicode property `White_Space`. -/
def whiteSpaceRanges : List (Nat × Nat) :=
  [(0x9, 0xD), (0x20, 0x20), (0x85, 0x85), (0xA0, 0xA0), (0x1680, 0x1680), (0x2000, 0x200A),
   (0x2028, 0x2029), (0x202F, 0x202F), (0x205F, 0x205F), (0x3000, 0x3000)]

/-- Whether a number lies in one of the ranges, both ends included. -/
def inRanges (ranges : List (Nat × Nat)) (n : Nat) : Bool :=
  ranges.any fun r => decide (r.1 ≤ n) && decide (n ≤ r.2)

/-- Unicode white space. -/
def isWhiteSpace (c : Char) : Bool := inRanges whiteSpaceRanges c.toNat

/-- The white space of one ASCII byte: blank, tab, line feed, form feed and carriage return. -/
def isAsciiBlank (b : UInt8) : Bool := b == 0x20 || b == 0x09 || b == 0x0A || b == 0x0C || b == 0x0D

/-- Every character of the core library's white space is Unicode white space. -/
theorem isWhiteSpace_of_isWhitespace {c : Char} (h : c.isWhitespace = true) : isWhiteSpace c = true := by
  simp only [Char.isWhitespace, Bool.or_eq_true, decide_eq_true_eq] at h
  rcases h with ((rfl | rfl) | rfl) | rfl <;> decide

/-- Takes the characters that satisfy `p` away from the end. -/
def dropEndWhile (p : Char → Bool) (cs : List Char) : List Char := (cs.reverse.dropWhile p).reverse

/-- Takes Unicode white space away from the end. -/
def trimEnd (cs : List Char) : List Char := dropEndWhile isWhiteSpace cs

/-- Takes Unicode white space away from both ends. -/
def trim (cs : List Char) : List Char := trimEnd (cs.dropWhile isWhiteSpace)

/-- What is cut from the end can be put back. -/
theorem exists_append_dropEndWhile (p : Char → Bool) (cs : List Char) :
    ∃ tail, cs = dropEndWhile p cs ++ tail ∧ tail.all p = true := by
  refine ⟨(cs.reverse.takeWhile p).reverse, ?_, ?_⟩
  · unfold dropEndWhile
    rw [← List.reverse_append, List.takeWhile_append_dropWhile, List.reverse_reverse]
  · rw [List.all_reverse]
    exact List.all_takeWhile

/-- A text whose last character stays is not cut. -/
theorem dropEndWhile_append_of_not {p : Char → Bool} (cs : List Char) {c : Char} (h : p c = false) :
    dropEndWhile p (cs ++ [c]) = cs ++ [c] := by
  simp [dropEndWhile, h]

end Keepsake
