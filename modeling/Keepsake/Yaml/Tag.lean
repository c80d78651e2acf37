import Keepsake.Number.Decimal
import Keepsake.Yaml.Flow
/-!
# Tags and directives

A tag is a handle and a suffix, or a whole URI between angle brackets. A directive tells the
version of the format or what a handle stands for. Characters of a URI may be escaped as the bytes
of their UTF-8 form, `%` and two digits to base sixteen for each.
-/

namespace Keepsake.Yaml

/-- Characters of a tag written with a handle. -/
def isTagChar (c : Char) : Bool :=
  isWordChar c || [';', '/', '?', ':', '@', '&', '=', '+', '$', '.', '!', '~', '*', '\'', '(', ')'].contains c

/-- Characters of a whole URI. -/
def isUriChar (c : Char) : Bool := isTagChar c || c = ',' || c = '[' || c = ']'

/--
Reads characters that satisfy `p` and escaped ones. Inside an escaped character `pending` bytes
are to come and `number` is what the bytes so far give.
-/
def scanUri (p : Char → Bool) (pending number : Nat) : List Char → Option (List Char × List Char)
  | '%' :: a :: b :: rest =>
    match hexValue? a, hexValue? b with
    | some x, some y =>
      let byte := 16 * x + y
      if pending = 0 then
        if byte < 0x80 then (scanUri p 0 0 rest).map fun r => (Char.ofNat byte :: r.1, r.2)
        else if byte < 0xC0 then none
        else if byte < 0xE0 then scanUri p 1 (byte - 0xC0) rest
        else if byte < 0xF0 then scanUri p 2 (byte - 0xE0) rest
        else if byte < 0xF8 then scanUri p 3 (byte - 0xF0) rest
        else none
      else if byte < 0x80 ∨ 0xC0 ≤ byte then none
      else if pending = 1 then
        match charOfNat? (64 * number + (byte - 0x80)) with
        | some c => (scanUri p 0 0 rest).map fun r => (c :: r.1, r.2)
        | none => none
      else scanUri p (pending - 1) (64 * number + (byte - 0x80)) rest
    | _, _ => none
  | c :: rest =>
    if c = '%' ∨ pending ≠ 0 then none
    else if p c then (scanUri p 0 0 rest).map fun r => (c :: r.1, r.2)
    else some ([], c :: rest)
  | [] => if pending = 0 then some ([], []) else none

/-- Reads a handle: `!`, a word that may be empty, and perhaps a second `!`. -/
def scanHandle : List Char → Option (List Char × List Char)
  | '!' :: rest =>
    let word := rest.takeWhile isWordChar
    match rest.dropWhile isWordChar with
    | '!' :: tail => some ('!' :: (word ++ ['!']), tail)
    | tail => some ('!' :: word, tail)
  | _ => none

/-- A tag as written. -/
structure Tag where
  handle : List Char
  suffix : List Char
deriving DecidableEq

namespace Tag

/-- Reads a tag and what stands behind it. -/
def scanBody : List Char → Option (Tag × List Char)
  | '!' :: '<' :: rest =>
    match scanUri isUriChar 0 0 rest with
    | some (uri, '>' :: tail) => if uri.isEmpty then none else some (⟨[], uri⟩, tail)
    | _ => none
  | cs => do
    let (handle, rest) ← scanHandle cs
    let (word, tail) ← scanUri isTagChar 0 0 rest
    if 1 < handle.length ∧ handle.getLast? = some '!' then
      if word.isEmpty then none else some (⟨handle, word⟩, tail)
    else
      let suffix := handle.drop 1 ++ word
      if suffix.isEmpty then some (⟨[], ['!']⟩, tail) else some (⟨['!'], suffix⟩, tail)

/-- Reads a tag, which a blank ends or, inside brackets, a comma. -/
def scan (inFlow : Bool) (cs : List Char) : Option (Tag × List Char) :=
  match scanBody cs with
  | some (tag, rest) =>
    if startsBlank rest ∨ (inFlow ∧ rest.head? = some ',') then some (tag, rest) else none
  | none => none

end Tag

/-- What a directive tells. -/
inductive Directive where
  | version (major minor : Nat)
  /-- what a handle of tags stands for -/
  | handle (name uri : List Char)
deriving DecidableEq

namespace Directive

/-- Reads a number of at most nine digits. -/
def scanNumber (cs : List Char) : Option (Nat × List Char) :=
  let ds := cs.takeWhile Char.isDigit
  if ds.isEmpty ∨ 9 < ds.length then none
  else some (Decimal.ofDigits 0 ds, cs.dropWhile Char.isDigit)

/-- Reads a version: two numbers with a point between them. -/
def scanVersion (cs : List Char) : Option (Directive × List Char) :=
  match scanNumber (cs.dropWhile isBlank) with
  | some (major, '.' :: rest) => (scanNumber rest).map fun r => (version major r.1, r.2)
  | _ => none

/-- Reads a handle and what it stands for. -/
def scanPrefix (cs : List Char) : Option (Directive × List Char) := do
  let (name, rest) ← scanHandle (cs.dropWhile isBlank)
  if 1 < name.length ∧ name.getLast? ≠ some '!' then none
  else if !(rest.head?.any isBlank) then none
  else
    let (uri, tail) ← scanUri isUriChar 0 0 (rest.dropWhile isBlank)
    if uri.isEmpty ∨ !startsBlank tail then none else some (handle name uri, tail)

/-- Reads a directive behind its `%`. -/
def scan (cs : List Char) : Option (Directive × List Char) :=
  let name := cs.takeWhile isWordChar
  let rest := cs.dropWhile isWordChar
  if !startsBlank rest then none
  else if name = ['Y', 'A', 'M', 'L'] then scanVersion rest
  else if name = ['T', 'A', 'G'] then scanPrefix rest
  else none

end Directive

end Keepsake.Yaml
