import Keepsake.Toml.Number
/-!
# TOML documents

A document is read line by line: a key with its value, or a header that tells where the keys below
it go. Arrays may run over several lines and hold comments, tables between braces may not. Values
nest less than eighty deep, and a dotted key has fewer than eighty parts.

Termination: the functions that call each other share one count, which every call lowers. Of two
calls in a row at least one reads a character, so twice the length of the text is enough.
-/

namespace Keepsake.Toml

/-- How deep values nest and how many parts a key has, at the most and one more. -/
def depthLimit : Nat := 80

/-- The text behind the blanks at its front. -/
def skipBlanks (cs : List Char) : List Char := cs.dropWhile isBlank

/-- The text behind a comment, if it starts with one. -/
def skipComment : List Char → List Char
  | '#' :: rest => rest.dropWhile isCommentChar
  | cs => cs

/-- The text behind the rest of a line, which holds only blanks and a comment. -/
def endLine (cs : List Char) : Option (List Char) :=
  match skipComment (skipBlanks cs) with
  | '\n' :: rest => some rest
  | '\r' :: '\n' :: rest => some rest
  | [] => some []
  | _ => none

/-- The text behind blanks, comments and line breaks. -/
def skipSpace : Nat → List Char → List Char
  | 0, cs => cs
  | fuel + 1, cs =>
    match skipComment (skipBlanks cs) with
    | '\n' :: rest => skipSpace fuel rest
    | '\r' :: '\n' :: rest => skipSpace fuel rest
    | _ => skipBlanks cs

/-! ## Keys -/

/-- Characters of a key without quotes. -/
def isKeyChar (c : Char) : Bool := c.isAlphanum || c = '-' || c = '_'

/-- Reads a part of a key. -/
def readKeyPart (cs : List Char) : TextRead :=
  match cs with
  | '"' :: rest => readBasic rest
  | '\'' :: rest => readLiteral rest
  | _ =>
    let name := cs.takeWhile isKeyChar
    if name.isEmpty then none else some (name, cs.dropWhile isKeyChar)

/-- Reads a dotted key, with blanks around its parts. -/
def readKey : Nat → List Char → Option (List String × List Char)
  | 0, _ => none
  | fuel + 1, cs => do
    let (part, rest) ← readKeyPart (skipBlanks cs)
    match skipBlanks rest with
    | '.' :: rest => do
      let (parts, rest) ← readKey fuel rest
      some (String.ofList part :: parts, rest)
    | rest => some ([String.ofList part], rest)

/-- Reads a key as the path to a table and a name in it. -/
def readPath (cs : List Char) : Option (List String × String × List Char) :=
  match readKey (depthLimit - 1) cs with
  | some (parts, rest) => parts.getLast?.map (parts.dropLast, ·, rest)
  | none => none

/-! ## Values -/

mutual

/-- Reads a value, `depth` of which may still nest. -/
def readValue : Nat → Nat → List Char → Option (Item × List Char)
  | 0, _, _ => none
  | fuel + 1, depth, cs =>
    match cs with
    | [] => none
    | c :: rest =>
      if c = '"' ∨ c = '\'' then (readText cs).map fun r => (.text (String.ofList r.1), r.2)
      else if c = '[' then
        if depth = 0 then none
        else (readItems fuel (depth - 1) rest).map fun r => (.array false r.1, r.2)
      else if c = '\x7b' then
        if depth = 0 then none
        else match skipBlanks rest with
          | '\x7d' :: rest => some (.table .braces [], rest)
          | rest => (readPairs fuel (depth - 1) [] rest).map fun r => (.table .braces r.1, r.2)
      else match cs with
        | 't' :: 'r' :: 'u' :: 'e' :: rest => some (.bool true, rest)
        | 'f' :: 'a' :: 'l' :: 's' :: 'e' :: rest => some (.bool false, rest)
        | _ => readNumber cs

/-- Reads the items of an array, with the closing bracket. -/
def readItems : Nat → Nat → List Char → Option (List Item × List Char)
  | 0, _, _ => none
  | fuel + 1, depth, cs =>
    match skipSpace cs.length cs with
    | ']' :: rest => some ([], rest)
    | cs => do
      let (item, rest) ← readValue fuel depth cs
      match skipSpace rest.length rest with
      | ',' :: rest => do
        let (items, rest) ← readItems fuel depth rest
        some (item :: items, rest)
      | ']' :: rest => some ([item], rest)
      | _ => none

/-- Reads the entries of a table between braces, with the closing brace, after the entries `es`. -/
def readPairs : Nat → Nat → Entries → List Char → Option (Entries × List Char)
  | 0, _, _, _ => none
  | fuel + 1, depth, es, cs => do
    let (path, key, rest) ← readPath cs
    match rest with
    | '=' :: rest => do
      let (item, rest) ← readValue fuel depth (skipBlanks rest)
      let es ← es.insertDotted path key item .braces
      match skipBlanks rest with
      | ',' :: rest => readPairs fuel depth es rest
      | '\x7d' :: rest => some (es, rest)
      | _ => none
    | _ => none

end

/-! ## Lines -/

/-- A document while it is read: its entries, and the table that the last header opened. -/
structure Draft where
  entries : Entries
  header : List String

/-- Reads a header behind its bracket. -/
def Draft.readHeader (d : Draft) (cs : List Char) : Option (Draft × List Char) :=
  match cs with
  | '[' :: cs => do
    let (path, key, rest) ← readPath cs
    match rest with
    | ']' :: ']' :: rest => do
      let rest ← endLine rest
      let entries ← d.entries.openRow path key
      some (⟨entries, path ++ [key]⟩, rest)
    | _ => none
  | _ => do
    let (path, key, rest) ← readPath cs
    match rest with
    | ']' :: rest => do
      let rest ← endLine rest
      let entries ← d.entries.openTable path key
      some (⟨entries, path ++ [key]⟩, rest)
    | _ => none

/-- Reads a key with its value. -/
def Draft.readPair (d : Draft) (cs : List Char) : Option (Draft × List Char) := do
  let (path, key, rest) ← readPath cs
  match rest with
  | '=' :: rest => do
    let (item, rest) ← readValue (2 * rest.length + 1) (depthLimit - 1) (skipBlanks rest)
    let rest ← endLine rest
    let entries ← d.entries.assign d.header path key item
    some ({ d with entries }, rest)
  | _ => none

/-- Reads lines up to the end. -/
def Draft.readLines : Nat → Draft → List Char → Option Entries
  | 0, _, _ => none
  | fuel + 1, d, cs =>
    match skipBlanks cs with
    | [] => some d.entries
    | '[' :: rest => do
      let (d, rest) ← d.readHeader rest
      readLines fuel d rest
    | c :: rest =>
      if c = '#' ∨ c = '\n' ∨ c = '\r' then do
        let rest ← endLine (c :: rest)
        readLines fuel d rest
      else do
        let (d, rest) ← d.readPair (c :: rest)
        readLines fuel d rest

/-- The text without a byte order mark at its front. -/
def dropMark : List Char → List Char
  | '\ufeff' :: cs => cs
  | cs => cs

/-- Reads a document. -/
def readDocument (cs : List Char) : Option Entries :=
  Draft.readLines (cs.length + 1) ⟨[], []⟩ (dropMark cs)

end Keepsake.Toml
