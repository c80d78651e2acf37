import Keepsake.Json.Number
import Keepsake.Json.Text
/-!
# JSON tokens

A document is cut into punctuation, strings, numbers and words. A number or a word takes every
character that could belong to it; whether it is one of the grammar is decided when it is read.

Termination: every token takes at least one character of the text.
-/

namespace Keepsake.Json

/-- A token of a document. -/
inductive Token where
  | openBrace | closeBrace | openBracket | closeBracket | colon | comma
  | text (cs : List Char)
  | number (cs : List Char)
  | word (cs : List Char)
deriving DecidableEq

/-- The blanks between tokens. -/
def isBlank (c : Char) : Bool := c = ' ' || c = '\n' || c = '\t' || c = '\r'

/-- Characters of which numbers are made. -/
def isNumberChar (c : Char) : Bool :=
  c.isDigit || c = '-' || c = '+' || c = '.' || c = 'e' || c = 'E'

/-- The token of a punctuation character. -/
def Token.ofPunctuation? : Char → Option Token
  | '\x7b' => some .openBrace
  | '\x7d' => some .closeBrace
  | '[' => some .openBracket
  | ']' => some .closeBracket
  | ':' => some .colon
  | ',' => some .comma
  | _ => none

/-- A scanned body ends inside the text that it was scanned from. -/
theorem Piece.length_lt_of_scan {cs rest : List Char} {ps : List Piece}
    (h : Piece.scan cs = some (ps, rest)) : rest.length < cs.length := by
  fun_induction Piece.scan cs generalizing ps rest with
  | case1 => simp at h
  | case2 r => simp at h; simp [h.2]
  | case3 a b c d r n ps' tail hs _ ih =>
    simp at h
    have := ih hs
    simp [← h.2]; omega
  | case4 => simp at h
  | case5 e r _ p ps' tail hs _ ih =>
    simp at h
    have := ih hs
    simp [← h.2]; omega
  | case6 => simp at h
  | case7 => simp at h
  | case8 c r _ _ _ _ ps' tail hs ih =>
    simp at h
    have := ih hs
    simp [← h.2]; omega
  | case9 => simp at h

/-- The rest after a string is shorter than what it was read from. -/
theorem length_lt_of_readString {cs text rest : List Char}
    (h : readString cs = some (text, rest)) : rest.length < cs.length := by
  unfold readString at h
  split at h
  · rename_i hs
    obtain ⟨_, _, he⟩ := Option.map_eq_some_iff.1 h
    simp at he
    exact he.2 ▸ Piece.length_lt_of_scan hs
  · simp at h

theorem length_dropWhile_le (p : Char → Bool) (cs : List Char) :
    (cs.dropWhile p).length ≤ cs.length := by
  induction cs with
  | nil => simp
  | cons c cs ih =>
    rw [List.dropWhile_cons]
    split
    · simp; omega
    · simp

/-- The tokens of a text. -/
def tokens : List Char → Option (List Token)
  | [] => some []
  | c :: cs =>
    if isBlank c then tokens cs
    else if c = '"' then
      match h : readString cs with
      | none => none
      | some (text, rest) =>
        have := length_lt_of_readString h
        (tokens rest).map (.text text :: ·)
    else match Token.ofPunctuation? c with
      | some t => (tokens cs).map (t :: ·)
      | none =>
        if c = '-' ∨ c.isDigit then
          have := length_dropWhile_le isNumberChar cs
          (tokens (cs.dropWhile isNumberChar)).map (.number (c :: cs.takeWhile isNumberChar) :: ·)
        else if c.isAlpha then
          have := length_dropWhile_le Char.isAlpha cs
          (tokens (cs.dropWhile Char.isAlpha)).map (.word (c :: cs.takeWhile Char.isAlpha) :: ·)
        else none
termination_by cs => cs.length
decreasing_by all_goals simp_all <;> omega

end Keepsake.Json
