import Keepsake.Stamp
/-!
# Names of save files and backups

A save-file is kept in a file with its name and a suffix. A rotating backup has another suffix; a
timestamped backup has the name of the save file, an underscore, the moment, and, if that moment
was taken, a counter behind a point. `readBackup` recognises the names of timestamped backups,
`savedName?` those of save files.
-/

namespace Keepsake

/-- The suffix of save files. -/
def saveSuffix : String := ".softsav"

/-- The suffix of rotating backups. -/
def rotatingSuffix : String := ".softsavB"

/-- The file of a save-file. -/
def canonicalName (name : String) : String := name ++ saveSuffix

/-- The rotating backup of a save-file. -/
def rotatingName (name : String) : String := name ++ rotatingSuffix

/-- The timestamped backup of a save-file, without counter. -/
def timestampedName (name : String) (stamp : Stamp) : String :=
  canonicalName name ++ "_" ++ String.ofList stamp.compactChars

/-- A name with a counter; the counter zero is not written. -/
def withCounter (base : String) (counter : Nat) : String :=
  if counter = 0 then base else base ++ "." ++ Decimal.text counter

/-- What follows a text at the front of another. -/
def dropFront? : List Char → List Char → Option (List Char)
  | [], cs => some cs
  | _ :: _, [] => none
  | p :: ps, c :: cs => if p = c then dropFront? ps cs else none

/-- The save-file that a file belongs to as its present content; hidden files belong to none. -/
def savedName? (file : String) : Option String :=
  if file.startsWith "." then none
  else match dropFront? saveSuffix.toList.reverse file.toList.reverse with
    | none | some [] => none
    | some cs => some (String.ofList cs.reverse)

/-- The counters are below this. -/
def counterLimit : Nat := 0x100000000

/-- Reads a counter. -/
def readCounter (cs : List Char) : Option Nat := Decimal.readCount counterLimit cs

/-- Reads the moment and the counter behind the underscore of a backup's name. -/
def readMoment (cs : List Char) : Option (Stamp × Nat) :=
  let stamp := cs.takeWhile (· ≠ '.')
  match cs.dropWhile (· ≠ '.') with
  | _ :: counter => do
    let n ← readCounter counter
    let s ← Stamp.readCompact stamp
    some (s, n)
  | [] => (Stamp.readCompact stamp).map (·, 0)

/-- Reads the name of a file as that of a timestamped backup of the save-file `name`. -/
def readBackup (name file : String) : Option (Stamp × Nat) :=
  (dropFront? (canonicalName name ++ "_").toList file.toList).bind readMoment

end Keepsake
