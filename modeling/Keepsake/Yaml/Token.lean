import Keepsake.Yaml.BlockScalar
import Keepsake.Yaml.Tag
/-!
# YAML tokens

A document is cut into tokens. Blocks have no brackets of their own: the scanner keeps the columns
of the blocks that are open and writes tokens where one begins or ends.

A key is known only by the colon behind it. So the place of a token that may be a key is
remembered as a candidate, one for each level of brackets, and the tokens that mark it are put
before it once the colon comes. A candidate lasts to the end of its line and for 1024 characters;
one that stands where its block can only continue with a key is required.
-/

namespace Keepsake.Yaml

/-- A token of a document. -/
inductive Token where
  | directive (d : Directive)
  | documentStart | documentEnd
  | blockSequence | blockMapping | blockEnd
  | openBracket | closeBracket | openBrace | closeBrace
  | entry | comma | key | value
  | alias (name : List Char)
  | anchor (name : List Char)
  | tag (t : Tag)
  | scalar (plain : Bool) (text : List Char)
deriving DecidableEq

/-- The place of a token that may turn out to be a key. -/
structure Candidate where
  /-- nothing but a key may stand at this place -/
  required : Bool
  /-- the number of tokens before it -/
  position : Nat
  mark : Mark
deriving DecidableEq

namespace Candidate

/-- How far a key may be from its colon. -/
def reach : Nat := 1024

/-- Whether a candidate can no longer become a key. -/
def isStale (k : Candidate) (now : Mark) : Bool :=
  decide (k.mark.line < now.line) || decide (k.mark.index + reach < now.index)

end Candidate

/-- A place for a candidate without the one in it; fails if that one is required. -/
def release : Option Candidate → Option (Option Candidate)
  | some k => if k.required then none else some none
  | none => some none

/-- A place for a candidate, a stale one released. -/
def expire (now : Mark) : Option Candidate → Option (Option Candidate)
  | some k => if k.isStale now then release (some k) else some (some k)
  | none => some none

/-- The state of the scanner between two tokens. -/
structure Scanner where
  cursor : Cursor
  /-- the tokens so far, the last first -/
  tokens : List Token
  /-- their number -/
  count : Nat
  /-- the column of the innermost block; `-1` outside all -/
  indent : Int
  /-- the columns of the blocks around it, the nearest first -/
  outer : List Int
  /-- whether a key may start here -/
  keyAllowed : Bool
  /-- the candidate at the present level of brackets -/
  candidate : Option Candidate
  /-- the candidates of the levels around it, the nearest first -/
  outerCandidates : List (Option Candidate)
deriving DecidableEq

namespace Scanner

/-- The scanner before a text. -/
def start (cs : List Char) : Scanner where
  cursor := ⟨cs, Mark.start⟩
  tokens := []
  count := 0
  indent := -1
  outer := []
  keyAllowed := true
  candidate := none
  outerCandidates := []

/-- Whether the scanner is inside brackets. -/
def inFlow (s : Scanner) : Bool := !s.outerCandidates.isEmpty

/-- The present column. -/
def column (s : Scanner) : Nat := s.cursor.mark.column

/-- Adds a token. -/
def emit (s : Scanner) (t : Token) : Scanner := { s with tokens := t :: s.tokens, count := s.count + 1 }

/-- Adds tokens at an earlier position, the last of them first. -/
def emitAt (s : Scanner) (position : Nat) (ts : List Token) : Scanner :=
  let behind := s.count - position
  { s with
    tokens := s.tokens.take behind ++ ts ++ s.tokens.drop behind
    count := s.count + ts.length }

/-- Moves `n` characters on. -/
def forward (s : Scanner) (n : Nat) : Scanner := { s with cursor := s.cursor.forward n }

/-- Moves on to where `rest` is left. -/
def forwardTo (s : Scanner) (rest : List Char) : Scanner :=
  { s with cursor := ⟨rest, s.cursor.mark.forward (s.cursor.rest.length - rest.length)⟩ }

/-! ## Blocks -/

/-- Ends the blocks among `columns` that start to the right of `column`. -/
def closeBlocks (column : Int) (indent : Int) :
    List Int → List Token → Nat → Int × List Int × List Token × Nat
  | [], ts, n => (indent, [], ts, n)
  | o :: os, ts, n =>
    if column < indent then closeBlocks column o os (.blockEnd :: ts) (n + 1)
    else (indent, o :: os, ts, n)

/-- Ends the blocks that start to the right of `column`; inside brackets there are none. -/
def unroll (s : Scanner) (column : Int) : Scanner :=
  if s.inFlow then s
  else
    let (indent, outer, tokens, count) := closeBlocks column s.indent s.outer s.tokens s.count
    { s with indent, outer, tokens, count }

/-- Whether a block starts at a column. -/
def opensBlock (s : Scanner) (column : Nat) : Bool := !s.inFlow && decide (s.indent < column)

/-- Starts a block at the present column, if it is deeper than the innermost one. -/
def roll (s : Scanner) (opening : Token) : Scanner :=
  if s.opensBlock s.column then
    { s.emit opening with indent := s.column, outer := s.indent :: s.outer }
  else s

/-! ## Candidates -/

/-- Forgets the candidate of this level. -/
def releaseCandidate (s : Scanner) : Option Scanner :=
  (release s.candidate).map fun candidate => { s with candidate }

/-- Forgets every stale candidate. -/
def expireCandidates (s : Scanner) : Option Scanner := do
  let candidate ← expire s.cursor.mark s.candidate
  let outerCandidates ← s.outerCandidates.mapM (expire s.cursor.mark)
  some { s with candidate, outerCandidates }

/-- Remembers that the next token may be a key. -/
def saveCandidate (s : Scanner) : Option Scanner :=
  if s.keyAllowed then
    s.releaseCandidate.map fun s =>
      { s with candidate := some ⟨!s.inFlow && decide (s.indent = s.column), s.count, s.cursor.mark⟩ }
  else some s

/-! ## The tokens one by one -/

/-- A directive, with its line. -/
def takeDirective (s : Scanner) : Option Scanner := do
  let s ← (s.unroll (-1)).releaseCandidate
  let (d, rest) ← Directive.scan (s.cursor.rest.drop 1)
  let s := s.forwardTo rest
  let cursor ← s.cursor.endLine
  some { s.emit (.directive d) with cursor, keyAllowed := false }

/-- A line that starts or ends a document. -/
def takeMarker (s : Scanner) (t : Token) : Option Scanner := do
  let s ← (s.unroll (-1)).releaseCandidate
  some { (s.emit t).forward 3 with keyAllowed := false }

/-- An opening bracket. -/
def takeOpening (s : Scanner) (t : Token) : Option Scanner := do
  let s ← s.saveCandidate
  some { (s.emit t).forward 1 with
    keyAllowed := true
    candidate := none
    outerCandidates := s.candidate :: s.outerCandidates }

/-- A closing bracket. -/
def takeClosing (s : Scanner) (t : Token) : Option Scanner := do
  let s ← s.releaseCandidate
  let s := { (s.emit t).forward 1 with keyAllowed := false }
  match s.outerCandidates with
  | [] => some s
  | candidate :: outerCandidates => some { s with candidate, outerCandidates }

/-- A comma. -/
def takeComma (s : Scanner) : Option Scanner := do
  let s ← s.releaseCandidate
  some { (s.emit .comma).forward 1 with keyAllowed := true }

/-- The dash of an item. -/
def takeEntry (s : Scanner) : Option Scanner :=
  if !s.inFlow ∧ !s.keyAllowed then none
  else do
    let s ← (s.roll .blockSequence).releaseCandidate
    some { (s.emit .entry).forward 1 with keyAllowed := true }

/-- The question mark before a key. -/
def takeKey (s : Scanner) : Option Scanner :=
  if !s.inFlow ∧ !s.keyAllowed then none
  else do
    let s ← (s.roll .blockMapping).releaseCandidate
    some { (s.emit .key).forward 1 with keyAllowed := !s.inFlow }

/-- The colon before a value: a candidate before it becomes a key. -/
def takeValue (s : Scanner) : Option Scanner :=
  match s.candidate with
  | some k =>
    let s :=
      if s.opensBlock k.mark.column then
        { s.emitAt k.position [.key, .blockMapping] with
          indent := k.mark.column
          outer := s.indent :: s.outer }
      else s.emitAt k.position [.key]
    some { (s.emit .value).forward 1 with candidate := none, keyAllowed := false }
  | none =>
    if !s.inFlow ∧ !s.keyAllowed then none
    else
      let s := s.roll .blockMapping
      some { (s.emit .value).forward 1 with keyAllowed := !s.inFlow }

/-- Whether a text may follow the name of an anchor. -/
def endsName (cs : List Char) : Bool :=
  startsBlank cs || cs.head?.any fun c => ['?', ':', ',', ']', '\x7d', '%', '@', '\x60'].contains c

/-- The name of an anchor or of an alias. -/
def takeName (s : Scanner) (token : List Char → Token) : Option Scanner := do
  let s ← s.saveCandidate
  let cs := s.cursor.rest.drop 1
  let name := cs.takeWhile isWordChar
  if name.isEmpty ∨ !endsName (cs.dropWhile isWordChar) then none
  else some { (s.emit (token name)).forward (name.length + 1) with keyAllowed := false }

/-- A tag. -/
def takeTag (s : Scanner) : Option Scanner := do
  let s ← s.saveCandidate
  let (t, rest) ← Tag.scan s.inFlow s.cursor.rest
  some { (s.forwardTo rest).emit (.tag t) with keyAllowed := false }

/-- A literal or folded scalar. -/
def takeBlockScalar (s : Scanner) (folded : Bool) : Option Scanner := do
  let s ← s.releaseCandidate
  let (text, cursor) ← scanBlock folded s.indent (s.cursor.forward 1)
  some { s.emit (.scalar false text) with cursor, keyAllowed := true }

/-- A quoted scalar. -/
def takeQuoted (s : Scanner) (double : Bool) : Option Scanner := do
  let s ← s.saveCandidate
  let c := s.cursor.forward 1
  let (text, cursor) ←
    if double then scanDouble .start c.mark .none c.rest else scanSingle .start c.mark c.rest
  some { s.emit (.scalar false text) with cursor, keyAllowed := false }

/-- A plain scalar; a key may start behind it only on a new line. -/
def takePlain (s : Scanner) : Option Scanner := do
  let s ← s.saveCandidate
  let (text, cursor, keyAllowed) ← scanPlain s.inFlow (s.indent + 1) .start s.cursor.mark s.cursor.rest
  some { s.emit (.scalar true text) with cursor, keyAllowed }

/-- Whether a character cannot start a plain scalar on its own. -/
def isIndicator (c : Char) : Bool :=
  ['-', '?', ':', ',', '[', ']', '\x7b', '\x7d', '#', '&', '*', '!', '|', '>', '\'', '"', '%', '@',
    '\x60'].contains c

/-- Whether a plain scalar starts with `c` before `rest`. -/
def startsPlain (inFlow : Bool) (c : Char) (rest : List Char) : Bool :=
  !(isBlank c || isBreak c || isIndicator c) ||
    (c = '-' && !(rest.head?.any isBlank)) ||
    (!inFlow && (c = '?' || c = ':') && !startsBlank rest)

/-- The token that starts with `c` before `rest`. -/
def take (s : Scanner) (c : Char) (rest : List Char) : Option Scanner :=
  if s.column = 0 ∧ c = '%' then s.takeDirective
  else if s.column = 0 ∧ startsMarker (c :: rest) then
    s.takeMarker (if c = '-' then .documentStart else .documentEnd)
  else if c = '[' then s.takeOpening .openBracket
  else if c = '\x7b' then s.takeOpening .openBrace
  else if c = ']' then s.takeClosing .closeBracket
  else if c = '\x7d' then s.takeClosing .closeBrace
  else if c = ',' then s.takeComma
  else if c = '-' ∧ startsBlank rest then s.takeEntry
  else if c = '?' ∧ (s.inFlow ∨ startsBlank rest) then s.takeKey
  else if c = ':' ∧ (s.inFlow ∨ startsBlank rest) then s.takeValue
  else if c = '*' then s.takeName .alias
  else if c = '&' then s.takeName .anchor
  else if c = '!' then s.takeTag
  else if c = '|' ∧ !s.inFlow then s.takeBlockScalar false
  else if c = '>' ∧ !s.inFlow then s.takeBlockScalar true
  else if c = '\'' then s.takeQuoted false
  else if c = '"' then s.takeQuoted true
  else if startsPlain s.inFlow c rest then s.takePlain
  else none

/-! ## The run -/

/--
Skips blanks, comments and line breaks; gives the cursor and whether a key may start there. A tab
is no blank where a key may start; a byte order mark at the start of a line is one.
-/
def skipBlanks (inFlow keyAllowed : Bool) (m : Mark) (inComment : Bool) : List Char → Cursor × Bool
  | [] => (⟨[], m⟩, keyAllowed)
  | '\r' :: '\n' :: rest => skipBlanks inFlow (keyAllowed || !inFlow) (m.newLine 2) false rest
  | c :: rest =>
    if isBreak c then skipBlanks inFlow (keyAllowed || !inFlow) (m.newLine 1) false rest
    else if inComment then skipBlanks inFlow keyAllowed (m.forward 1) true rest
    else if c = ' ' ∨ (c = '\t' ∧ (inFlow ∨ !keyAllowed)) ∨ (c = '\ufeff' ∧ m.column = 0) then
      skipBlanks inFlow keyAllowed (m.forward 1) false rest
    else if c = '#' then skipBlanks inFlow keyAllowed (m.forward 1) true rest
    else (⟨c :: rest, m⟩, keyAllowed)

/-- Moves to the next token and ends what ends before it. -/
def advance (s : Scanner) : Option Scanner := do
  let (cursor, keyAllowed) := skipBlanks s.inFlow s.keyAllowed s.cursor.mark false s.cursor.rest
  let s ← { s with cursor, keyAllowed }.expireCandidates
  some (s.unroll s.column)

/-- The tokens at the end of the text. -/
def finish (s : Scanner) : Option (List Token) :=
  (s.unroll (-1)).releaseCandidate.map fun s => s.tokens.reverse

/-- Scans `fuel` tokens at the most; every token takes at least one character. -/
def run : Nat → Scanner → Option (List Token)
  | 0, _ => none
  | fuel + 1, s => do
    let s ← s.advance
    match s.cursor.rest with
    | [] => s.finish
    | c :: rest => run fuel (← s.take c rest)

end Scanner

/-- The tokens of a text. -/
def tokens (cs : List Char) : Option (List Token) := Scanner.run (cs.length + 1) (Scanner.start cs)

end Keepsake.Yaml
