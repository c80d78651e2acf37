import Keepsake.Text.Hex
/-!
# TOML strings

Four kinds: between quotes with escapes, between apostrophes without, and both over several lines
between three of the marks. A line break directly behind three marks is no part of the text, and
up to two marks may stand directly before the closing three.
-/

namespace Keepsake.Toml

/-- A blank or a tab. -/
def isBlank (c : Char) : Bool := c = ' ' || c = '\t'

/-- Characters of a comment: all but controls, and the tab. -/
def isCommentChar (c : Char) : Bool :=
  let n := c.toNat
  n = 0x09 || (0x20 ≤ n && n ≤ 0x7E) || 0x80 ≤ n

/-- Characters that stand for themselves between quotes. -/
def isBasicChar (c : Char) : Bool := isCommentChar c && c ≠ '"' && c ≠ '\\'

/-- Characters between apostrophes. -/
def isLiteralChar (c : Char) : Bool := isCommentChar c && c ≠ '\''

/-- The character whose number has the given digits to base sixteen. -/
def charOfHex? (ds : List Char) : Option Char := (hexNumber? ds).bind charOfNat?

/-- What an escape letter stands for. -/
def escapeLetter? : Char → Option Char
  | 'b' => some (Char.ofNat 0x08)
  | 't' => some '\t'
  | 'n' => some '\n'
  | 'f' => some (Char.ofNat 0x0C)
  | 'r' => some '\r'
  | '"' => some '"'
  | '\\' => some '\\'
  | _ => none

/-- A text and what stands behind it. -/
abbrev TextRead := Option (List Char × List Char)

/-- Puts a character before a text that was read. -/
def TextRead.cons (c : Char) (r : TextRead) : TextRead := r.map fun p => (c :: p.1, p.2)

/-- Reads on behind a quote, up to the closing quote. -/
def readBasic : List Char → TextRead
  | '"' :: rest => some ([], rest)
  | '\\' :: 'u' :: a :: b :: c :: d :: rest =>
    match charOfHex? [a, b, c, d] with
    | some x => (readBasic rest).cons x
    | none => none
  | '\\' :: 'U' :: a :: b :: c :: d :: e :: f :: g :: h :: rest =>
    match charOfHex? [a, b, c, d, e, f, g, h] with
    | some x => (readBasic rest).cons x
    | none => none
  | '\\' :: e :: rest =>
    match escapeLetter? e with
    | some x => (readBasic rest).cons x
    | none => none
  | c :: rest => if isBasicChar c then (readBasic rest).cons c else none
  | [] => none

/-- Reads on behind an apostrophe, up to the closing apostrophe. -/
def readLiteral : List Char → TextRead
  | '\'' :: rest => some ([], rest)
  | c :: rest => if isLiteralChar c then (readLiteral rest).cons c else none
  | [] => none

/-- Whether only blanks stand before the end of the line. -/
def endsLine (cs : List Char) : Bool :=
  match cs.dropWhile isBlank with
  | '\n' :: _ => true
  | '\r' :: '\n' :: _ => true
  | _ => false

/--
Reads on inside three quotes, up to the closing three. Behind a backslash at the end of a line,
`trimming` skips blanks and line breaks up to the next other character.
-/
def readLongBasic (trimming : Bool) : List Char → TextRead
  | '"' :: '"' :: '"' :: '"' :: '"' :: rest => some (['"', '"'], rest)
  | '"' :: '"' :: '"' :: '"' :: rest => some (['"'], rest)
  | '"' :: '"' :: '"' :: rest => some ([], rest)
  | '\r' :: '\n' :: rest =>
    if trimming then readLongBasic true rest else (readLongBasic false rest).cons '\n'
  | '\\' :: 'u' :: a :: b :: c :: d :: rest =>
    match charOfHex? [a, b, c, d] with
    | some x => (readLongBasic false rest).cons x
    | none => none
  | '\\' :: 'U' :: a :: b :: c :: d :: e :: f :: g :: h :: rest =>
    match charOfHex? [a, b, c, d, e, f, g, h] with
    | some x => (readLongBasic false rest).cons x
    | none => none
  | '\\' :: e :: rest =>
    if endsLine (e :: rest) then readLongBasic true (e :: rest)
    else match escapeLetter? e with
      | some x => (readLongBasic false rest).cons x
      | none => none
  | c :: rest =>
    if trimming ∧ (isBlank c ∨ c = '\n') then readLongBasic true rest
    else if isBasicChar c ∨ c = '"' ∨ c = '\n' then (readLongBasic false rest).cons c
    else none
  | [] => none

/-- Reads on inside three apostrophes, up to the closing three. -/
def readLongLiteral : List Char → TextRead
  | '\'' :: '\'' :: '\'' :: '\'' :: '\'' :: rest => some (['\'', '\''], rest)
  | '\'' :: '\'' :: '\'' :: '\'' :: rest => some (['\''], rest)
  | '\'' :: '\'' :: '\'' :: rest => some ([], rest)
  | '\r' :: '\n' :: rest => (readLongLiteral rest).cons '\n'
  | c :: rest =>
    if isLiteralChar c ∨ c = '\'' ∨ c = '\n' then (readLongLiteral rest).cons c else none
  | [] => none

/-- A text without a line break at its front. -/
def dropNewline : List Char → List Char
  | '\n' :: rest => rest
  | '\r' :: '\n' :: rest => rest
  | cs => cs

/-- Reads a string of any kind. -/
def readText : List Char → TextRead
  | '"' :: '"' :: '"' :: rest => readLongBasic false (dropNewline rest)
  | '\'' :: '\'' :: '\'' :: rest => readLongLiteral (dropNewline rest)
  | '"' :: rest => readBasic rest
  | '\'' :: rest => readLiteral rest
  | _ => none

end Keepsake.Toml
