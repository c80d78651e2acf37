import Keepsake.Number.Binary64
/-!
# Contents of a TOML document

A document is a table. Tables come to be in four ways, which decide what may still be added to
them: by a header, by a longer header, by a dotted key, or between braces. `openTable`, `openRow`
and `assign` are the three things that a line of a document does to the table of the whole
document.
-/

namespace Keepsake.Toml

/-- How a table came to be. -/
inductive Origin where
  /-- by a header of its own -/
  | header
  /-- by a header of a table inside it -/
  | innerHeader
  /-- by a dotted key -/
  | dottedKey
  /-- between braces -/
  | braces
deriving DecidableEq

/-- Whether a dotted key may add to a table. -/
def Origin.isOpen : Origin → Bool
  | innerHeader => true
  | dottedKey => true
  | _ => false

/-- A value of a document. -/
inductive Item where
  | text (s : String)
  | integer (i : Int)
  | float (x : Binary64)
  | bool (b : Bool)
  /-- a date or a time of day; nothing here asks which -/
  | moment
  /-- `ofTables` tells that its items were written under headers in double brackets -/
  | array (ofTables : Bool) (items : List Item)
  | table (origin : Origin) (entries : List (String × Item))

/-- The entries of a table, in the order in which they were written. -/
abbrev Entries := List (String × Item)

namespace Entries

/-- The value under a key. -/
def get? (es : Entries) (key : String) : Option Item := es.lookup key

/-- Puts another value under a key that is present. -/
def replace (es : Entries) (key : String) (item : Item) : Entries :=
  es.map fun e => if e.1 = key then (key, item) else e

/--
Changes the table at a path. Tables that are missing are made, with the given origin; an array of
tables stands for the last of them. A dotted key passes only through tables that it may add to.
-/
def modify (made : Origin) (f : Origin → Entries → Option Entries) :
    List String → Origin → Entries → Option Entries
  | [], origin, es => f origin es
  | key :: path, _, es =>
    match es.get? key with
    | none => (modify made f path made []).map fun inner => es ++ [(key, .table made inner)]
    | some (.table origin inner) =>
      if origin = .braces ∨ (made = .dottedKey ∧ !origin.isOpen) then none
      else (modify made f path origin inner).map fun inner => es.replace key (.table origin inner)
    | some (.array true items) =>
      match items.getLast? with
      | some (.table origin inner) =>
        (modify made f path origin inner).map fun inner =>
          es.replace key (.array true (items.dropLast ++ [.table origin inner]))
      | _ => none
    | some _ => none

/-- Opens the table that a header names; it must not have been opened before. -/
def openTable (path : List String) (key : String) (es : Entries) : Option Entries :=
  let add (_ : Origin) (es : Entries) : Option Entries :=
    match es.get? key with
    | none => some (es ++ [(key, .table .header [])])
    | some (.table .innerHeader inner) => some (es.replace key (.table .header inner))
    | some _ => none
  modify .innerHeader add path .header es

/-- Opens one more table of the array that a header in double brackets names. -/
def openRow (path : List String) (key : String) (es : Entries) : Option Entries :=
  let add (_ : Origin) (es : Entries) : Option Entries :=
    match es.get? key with
    | none => some (es ++ [(key, .array true [.table .header []])])
    | some (.array true items) => some (es.replace key (.array true (items ++ [.table .header []])))
    | some _ => none
  modify .innerHeader add path .header es

/-- Puts a value under a key, dotted if `path` is not empty; the key must be new. -/
def insertDotted (path : List String) (key : String) (item : Item) (origin : Origin) (es : Entries) :
    Option Entries :=
  let add (origin : Origin) (es : Entries) : Option Entries :=
    if decide (origin = .dottedKey) = path.isEmpty ∨ (es.get? key).isSome then none
    else some (es ++ [(key, item)])
  modify .dottedKey add path origin es

/-- Puts a value under a key in the table at a path, which the last header opened. -/
def assign (header : List String) (path : List String) (key : String) (item : Item) (es : Entries) :
    Option Entries :=
  modify .innerHeader (insertDotted path key item) header .header es

end Entries

end Keepsake.Toml
