import Keepsake.Backup.Name
import Keepsake.Settings
import Keepsake.Storage
/-!
# Backups

Before a save file is overwritten or loaded it is copied, as its backup mode says. A timestamped
backup never replaces a file: if its name is taken it gets the least counter that makes it free.
The listing has the timestamped backups by moment and counter, and the rotating one behind them;
pruning deletes the oldest timestamped ones.
-/

namespace Keepsake

variable {ω : Type}

/-! ## Taking a backup -/

/--
The first name without a file among `base` with the counters from `counter` on, `tries` of them.
-/
def findFreeName {ε : Type} (s : Storage) (base : String) (counter : Nat) : Nat → Act ω ε String
  | 0 => pure (withCounter base counter)
  | tries + 1 => do
    if ← s.probe (withCounter base counter) then findFreeName s base (counter + 1) tries
    else pure (withCounter base counter)

/-- The name of the next backup. -/
def nextBackup {ε : Type} (s : Storage) (name : String) (mode : BackupMode) (stamp : Stamp) :
    Act ω ε (Option String) :=
  match mode with
  | .off => pure none
  | .rotating => pure (some (rotatingName name))
  | .timestamped => do
    let d ← Act.get World.disk
    let target ← findFreeName s (timestampedName name stamp) 0 (d.fileCount + 1)
    pure (some target)

/-- Copies a save file as its mode says; gives the name of the backup, if one was taken. -/
def takeBackup (s : Storage) (name : String) (mode : BackupMode) (stamp : Stamp) :
    Act ω Failure (Option String) :=
  if mode = .off then pure none
  else do
    if ← s.probe (canonicalName name) then
      match ← nextBackup s name mode stamp with
      | none => pure none
      | some target => do
        s.copy (canonicalName name) target
        pure (some target)
    else pure none

/-! ## Listing -/

/-- A backup found in the folder. -/
structure BackupEntry where
  file : String
  /-- the moment in its name; none if it is the rotating backup -/
  takenAt : Option Stamp
  counter : Nat
deriving DecidableEq

namespace BackupEntry

/-- Whether a backup is a timestamped one. -/
def isTimestamped (e : BackupEntry) : Bool := e.takenAt.isSome

/-- The timestamped backup that a file is. -/
def ofFile? (name file : String) : Option BackupEntry :=
  if file = rotatingName name then none
  else (readBackup name file).map fun r => ⟨file, some r.1, r.2⟩

/-- The order of timestamped backups. -/
def rank (e : BackupEntry) : Nat := (e.takenAt.map Stamp.rank).getD 0 * counterLimit + e.counter

/-- Whether a backup does not come behind another. -/
def notAfter (a b : BackupEntry) : Bool := decide (a.rank ≤ b.rank)

/-- The timestamped backups among files, the oldest first. -/
def timestampedOf (name : String) (files : List String) : List BackupEntry :=
  (files.filterMap (ofFile? name)).mergeSort notAfter

/-- The backups among files, the oldest first and the rotating one last. -/
def listOf (name : String) (files : List String) : List BackupEntry :=
  timestampedOf name files ++
    if files.contains (rotatingName name) then [⟨rotatingName name, none, 0⟩] else []

end BackupEntry

/-- The backups of a save-file, the oldest first and the rotating one last. -/
def listBackups (s : Storage) (name : String) : Act ω Failure (List BackupEntry) := do
  let files ← s.list
  pure (BackupEntry.listOf name files)

/-! ## Pruning -/

/-- Deletes backups one after the other; gives their names. -/
def deleteBackups (s : Storage) : List BackupEntry → Act ω Failure (List String)
  | [] => pure []
  | e :: rest => do
    s.delete e.file
    Act.tell .backup .debug "pruned backup" [("file", .text e.file)]
    let names ← deleteBackups s rest
    pure (e.file :: names)

/-- Deletes all but the last `keep` timestamped backups; gives the names of those deleted. -/
def pruneBackups (s : Storage) (name : String) (keep : Nat) : Act ω Failure (List String) := do
  let entries ← listBackups s name
  let timestamped := entries.filter BackupEntry.isTimestamped
  deleteBackups s (timestamped.take (timestamped.length - keep))

end Keepsake
