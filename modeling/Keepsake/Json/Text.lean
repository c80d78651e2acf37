import Keepsake.Text.Hex
/-!
# JSON strings

`escape` writes the body of a JSON string: the quote, the backslash and the controls below the
blank are escaped, all else stands for itself. Reading goes in two steps. `Piece.scan` cuts the
body into plain characters and UTF-16 units given by `\uXXXX`, up to the closing quote;
`Piece.assemble` joins surrogate pairs and refuses lone surrogates. Both steps recurse on the text
itself.
-/

namespace Keepsake.Json

/-! ## Writing -/

/-- One character inside a string. -/
def escapeChar (c : Char) : List Char :=
  if c = '"' then ['\\', '"']
  else if c = '\\' then ['\\', '\\']
  else if c = '\n' then ['\\', 'n']
  else if c = '\r' then ['\\', 'r']
  else if c = '\t' then ['\\', 't']
  else if c.toNat = 0x08 then ['\\', 'b']
  else if c.toNat = 0x0C then ['\\', 'f']
  else if c.toNat < 0x20 then
    ['\\', 'u', '0', '0', hexDigit (c.toNat / 16), hexDigit (c.toNat % 16)]
  else [c]

/-- The body of a string. -/
def escape (cs : List Char) : List Char := cs.flatMap escapeChar

/-- A string with its quotes. -/
def stringChars (cs : List Char) : List Char := '"' :: (escape cs ++ ['"'])

/-! ## Reading -/

/-- A part of a string's body: a character, or a UTF-16 unit given by its number. -/
inductive Piece where
  | char (c : Char)
  | unit (n : Nat)
deriving DecidableEq

namespace Piece

/-- What an escape letter stands for. -/
def ofLetter? : Char → Option Piece
  | '"' => some (.char '"')
  | '\\' => some (.char '\\')
  | '/' => some (.char '/')
  | 'b' => some (.char (Char.ofNat 0x08))
  | 'f' => some (.char (Char.ofNat 0x0C))
  | 'n' => some (.char '\n')
  | 'r' => some (.char '\r')
  | 't' => some (.char '\t')
  | _ => none

/-- The pieces of a body up to its closing quote, and what follows the quote. -/
def scan : List Char → Option (List Piece × List Char)
  | [] => none
  | '"' :: rest => some ([], rest)
  | '\\' :: 'u' :: a :: b :: c :: d :: rest =>
    match hexNumber? [a, b, c, d], scan rest with
    | some n, some (ps, tail) => some (.unit n :: ps, tail)
    | _, _ => none
  | '\\' :: e :: rest =>
    match ofLetter? e, scan rest with
    | some p, some (ps, tail) => some (p :: ps, tail)
    | _, _ => none
  | c :: rest =>
    if c.toNat < 0x20 ∨ c = '\\' then none
    else match scan rest with
      | some (ps, tail) => some (.char c :: ps, tail)
      | none => none

/--
The characters that the pieces stand for; a surrogate counts only as the first or second of a
pair.
-/
def assemble : List Piece → Option (List Char)
  | [] => some []
  | .char c :: rest => (assemble rest).map (c :: ·)
  | .unit h :: .unit l :: rest =>
    if 0xD800 ≤ h ∧ h < 0xDC00 then
      if 0xDC00 ≤ l ∧ l < 0xE000 then
        (assemble rest).map (Char.ofNat (0x10000 + (h - 0xD800) * 0x400 + (l - 0xDC00)) :: ·)
      else none
    else if 0xDC00 ≤ h ∧ h < 0xE000 then none
    else (assemble (.unit l :: rest)).map (Char.ofNat h :: ·)
  | .unit n :: rest =>
    if 0xD800 ≤ n ∧ n < 0xE000 then none else (assemble rest).map (Char.ofNat n :: ·)

end Piece

/-- Reads a string whose opening quote has been read; gives the text and what follows it. -/
def readString (cs : List Char) : Option (List Char × List Char) :=
  match Piece.scan cs with
  | some (ps, rest) => (Piece.assemble ps).map (·, rest)
  | none => none

end Keepsake.Json
