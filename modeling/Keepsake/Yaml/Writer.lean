import Keepsake.Json.Text
import Keepsake.Snapshot
import Keepsake.Yaml.Chars
import Keepsake.Yaml.Scalar
/-!
# Snapshots written as YAML

Every entry is a line of its own: the key, a colon, and the value, rows between brackets. A text
is written plain where that reads back as the same text, else in quotes; a text with a line feed
is given the literal style first, and if that takes more than one line it becomes a JSON string,
which YAML reads as well. White space at the end of what was written is cut off.
-/

namespace Keepsake.Yaml

/--
Numbers in YAML: an exponent from `1e16` up and below `1e-5`, and always a point or an exponent.
-/
def numberLayout : Layout where
  lowest := -5
  highest := 16
  keepPoint := true
  plusSign := false
  tie := .even
  nan := ".nan"
  infinity := ".inf"

/-! ## What stands in the way of a style -/

/-- Whether a character may be written as itself. -/
def isPrintable (c : Char) : Bool :=
  let n := c.toNat
  n = 0x0A || (0x20 ≤ n && n ≤ 0x7E) || (0xA0 ≤ n && n ≤ 0xD7FF) ||
    (0xE000 ≤ n && n ≤ 0xFFFD && n ≠ 0xFEFF) || 0x10000 ≤ n

/-- Characters that start something else than a plain scalar. -/
def isLeadingIndicator (c : Char) : Bool :=
  ['#', ',', '[', ']', '\x7b', '\x7d', '&', '*', '!', '|', '>', '\'', '"', '%', '@', '\x60'].contains c

/-- Whether the first character, before `rest`, starts something else than a plain scalar. -/
def startsIndicator (c : Char) (rest : List Char) : Bool :=
  isLeadingIndicator c || ((c = '?' || c = ':' || c = '-') && startsBlank rest)

/-- Whether a colon before a blank, or a `#` behind one, stands behind the character `before`. -/
def hasInnerIndicator (before : Char) : List Char → Bool
  | [] => false
  | c :: rest =>
    (c = ':' && startsBlank rest) || (c = '#' && (isBlank before || isBreak before)) ||
      hasInnerIndicator c rest

/-- Whether a character that satisfies `p` is followed by one that satisfies `q`. -/
def hasPair (p q : Char → Bool) : List Char → Bool
  | a :: b :: rest => (p a && q b) || hasPair p q (b :: rest)
  | _ => false

/-- Whether a text starts like the marker of a document. -/
def looksLikeMarker : List Char → Bool
  | '-' :: '-' :: '-' :: _ => true
  | '.' :: '.' :: '.' :: _ => true
  | _ => false

/-- Whether a plain scalar would be taken for something else. -/
def hasIndicator (cs : List Char) : Bool :=
  looksLikeMarker cs || match cs with
    | [] => false
    | c :: rest => startsIndicator c rest || hasInnerIndicator c rest

/-- A blank, but not a tab. -/
def isSpace (c : Char) : Bool := c = ' '

/-- A blank or a line break. -/
def isGap (c : Char) : Bool := isSpace c || isBreak c

/-- Whether a plain scalar can hold the text. -/
def allowsPlain (cs : List Char) : Bool :=
  cs.all isPrintable && !cs.any isBreak && !(cs.head?.any isGap) && !(cs.getLast?.any isGap) &&
    !hasIndicator cs

/-- Whether a single-quoted scalar can hold the text. -/
def allowsSingle (cs : List Char) : Bool :=
  cs.all isPrintable && !hasPair isSpace isBreak cs && !hasPair isBreak isSpace cs

/-- Whether a literal scalar can hold the text. -/
def allowsLiteral (cs : List Char) : Bool :=
  cs.all isPrintable && !hasPair isSpace isBreak cs && !(cs.getLast?.any isSpace)

/-! ## Styles -/

/-- The ways to write a text. -/
inductive Style where
  | plain | single | double | literal
deriving DecidableEq

/-- Whether a plain scalar would be read as something else than a text, or nearly so. -/
def isAmbiguous (cs : List Char) : Bool := decide (Form.ofPlain cs ≠ .text) || hasLeadingZero cs

/-- The style in which a text is written. -/
def styleOf (cs : List Char) : Style :=
  if cs.contains '\n' then if allowsLiteral cs then .literal else .double
  else if allowsPlain cs && !isAmbiguous cs then .plain
  else if allowsSingle cs then .single
  else .double

/-- The indentation of the lines of a scalar. -/
def indentation : List Char := [' ', ' ']

/-- The characters between single quotes; behind a line break the text is indented. -/
def singleBody (afterBreak : Bool) : List Char → List Char
  | [] => if afterBreak then indentation else []
  | c :: rest =>
    if isBreak c then c :: singleBody true rest
    else
      (if afterBreak then indentation else []) ++
        (if c = '\'' then ['\'', '\''] else [c]) ++ singleBody false rest

/-- An upper-case digit to base sixteen. -/
def upperHexDigit (n : Nat) : Char :=
  if n < 10 then Char.ofNat (0x30 + n) else Char.ofNat (0x41 + (n - 10))

/-- The last `width` digits to base sixteen of a number. -/
def upperHex : Nat → Nat → List Char
  | 0, _ => []
  | width + 1, n => upperHex width (n / 16) ++ [upperHexDigit (n % 16)]

/-- The letter that stands for a character behind a backslash. -/
def letterOf? (c : Char) : Option Char :=
  match c.toNat with
  | 0x00 => some '0'
  | 0x07 => some 'a'
  | 0x08 => some 'b'
  | 0x09 => some 't'
  | 0x0A => some 'n'
  | 0x0B => some 'v'
  | 0x0C => some 'f'
  | 0x0D => some 'r'
  | 0x1B => some 'e'
  | 0x22 => some '"'
  | 0x5C => some '\\'
  | 0x85 => some 'N'
  | 0x2028 => some 'L'
  | 0x2029 => some 'P'
  | _ => none

/-- One character between double quotes. -/
def doubleChar (c : Char) : List Char :=
  if isPrintable c ∧ !isBreak c ∧ c ≠ '"' ∧ c ≠ '\\' then [c]
  else match letterOf? c with
    | some l => ['\\', l]
    | none =>
      let n := c.toNat
      if n ≤ 0xFF then '\\' :: 'x' :: upperHex 2 n
      else if n ≤ 0xFFFF then '\\' :: 'u' :: upperHex 4 n
      else '\\' :: 'U' :: upperHex 8 n

/-- What the header of a literal scalar tells of its indentation and of its last line breaks. -/
def literalHints (cs : List Char) : List Char :=
  (if cs.head?.any isGap then ['2'] else []) ++
    match cs.reverse with
    | [] => ['-']
    | [b] => if isBreak b then ['+'] else ['-']
    | b :: a :: _ => if !isBreak b then ['-'] else if isBreak a then ['+'] else []

/-- The lines of a literal scalar. -/
def literalBody (afterBreak : Bool) : List Char → List Char
  | [] => []
  | c :: rest =>
    if isBreak c then c :: literalBody true rest
    else (if afterBreak then indentation else []) ++ c :: literalBody false rest

/-- A text in its style. -/
def styled (cs : List Char) : List Char :=
  match styleOf cs with
  | .plain => cs
  | .single => '\'' :: (singleBody false cs ++ ['\''])
  | .double => '"' :: (cs.flatMap doubleChar ++ ['"'])
  | .literal => '|' :: (literalHints cs ++ '\n' :: literalBody true cs)

/-! ## Lines -/

/-- What was written without the marker of a document before it. -/
def withoutMarker : List Char → List Char
  | '-' :: '-' :: '-' :: ' ' :: cs => cs
  | cs => cs

/-- A text on one line. -/
def textChars (cs : List Char) : List Char :=
  let written := trimEnd (withoutMarker (styled cs))
  if written.contains '\n' then Json.stringChars cs else written

/-- Items with a comma and a blank between them. -/
def commaSpaced : List (List Char) → List Char
  | [] => []
  | [x] => x
  | x :: xs => x ++ ',' :: ' ' :: commaSpaced xs

/-- A row between brackets. -/
def rowChars (items : List (List Char)) : List Char := '[' :: (commaSpaced items ++ [']'])

/-- A value on one line. -/
def valueChars : Value → List Char
  | .bool b => (Value.word b).toList
  | .int i => i.chars
  | .float x => numberLayout.chars x
  | .text s => textChars s.toList
  | .ints is => rowChars (is.map Whole.chars)
  | .floats xs => rowChars (xs.map numberLayout.chars)

/-- The line of an entry. -/
def entryChars (e : String × Value) : List Char :=
  textChars e.1.toList ++ ':' :: ' ' :: (valueChars e.2 ++ ['\n'])

/-- A snapshot, a line for each entry. -/
def snapshotChars (s : Snapshot) : List Char :=
  if s.entries.isEmpty then ['\x7b', '\x7d', '\n'] else s.entries.flatMap entryChars

end Keepsake.Yaml
