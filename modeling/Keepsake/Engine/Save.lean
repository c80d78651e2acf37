import Keepsake.Backup
import Keepsake.SaveFile
/-!
# Saving

A save writes a snapshot in three steps: it is encoded, the present file is backed up, and the
file is replaced. Only when all of it is done does the save-file remember the save. A backup that
fails does not stop the save.

A pass reads a save-file and saves it, perhaps only if something changed. Whatever a variable or a
storage does, a pass ends with a `PassResult`: a panic inside counts as a failure.
-/

namespace Keepsake

variable {ω ε : Type}

/-- What a pass came to. -/
inductive PassResult where
  | saved
  | unchanged
  | failed (f : Failure)
deriving DecidableEq

namespace SaveFile

/-- Backs up the present file before a save, and logs what came of it. -/
def backUpForSave (f : SaveFile ω) (s : Storage) : Act ω ε Unit := do
  let now ← Act.get World.now
  match ← Act.attempt (takeBackup s f.name f.settings.backupMode now) with
  | .ok (some backup) =>
    Act.tell .persister .debug "backed up save file"
      [("file", .text f.name), ("backup", .text backup)]
  | .ok none => pure ()
  | .error e =>
    Act.tell .persister .warn "backup failed, saving anyway"
      [("file", .text f.name), ("error", .text e.message)]

/-- Writes a snapshot as the content of the save file; gives the save-file that remembers it. -/
def save (f : SaveFile ω) (s : Storage) (format : Format) (snapshot : Snapshot) (now : Nat) :
    Act ω Failure (SaveFile ω) := do
  let data ← Act.ofExcept (format.encode snapshot)
  f.backUpForSave s
  s.write data (canonicalName f.name)
  Act.count (Metrics.addSize · data.size)
  Act.tell .persister .info "saved snapshot"
    [("file", .text f.name), ("entries", .number snapshot.size), ("bytes", .number data.size)]
  pure { f with lastSave := some ⟨snapshot, now⟩ }

/-- Reads the save-file and saves it, unless only changes are asked for and there are none. -/
def saveIfNeeded (f : SaveFile ω) (s : Storage) (format : Format) (now : Nat) (onlyChanged : Bool) :
    Act ω Failure (Option (SaveFile ω)) := do
  let snapshot ← f.readSnapshot
  if onlyChanged && !snapshot.changed (f.lastSave.map (·.snapshot)) then pure none
  else do
    let f ← f.save s format snapshot now
    pure (some f)

/-- Counts the result of a pass. -/
def countPass : PassResult → Act ω ε Unit
  | .saved => Act.count Metrics.addSave
  | .unchanged => Act.count Metrics.addUnchanged
  | .failed _ => Act.count Metrics.addSaveFailure

/-- A pass over one save-file. -/
def pass (f : SaveFile ω) (s : Storage) (format : Format) (now : Nat) (onlyChanged : Bool) :
    Act ω ε (PassResult × SaveFile ω) := do
  let outcome ← Act.settle (f.saveIfNeeded s format now onlyChanged)
  let result ← match outcome with
    | .ok (some f) => pure (PassResult.saved, f)
    | .ok none => pure (.unchanged, f)
    | .fail e => pure (.failed e, f)
    | .panic p => do
      Act.tell .engine .error "save pass panicked"
        [("file", .text f.name), ("panic", .text p.message)]
      pure (.failed (.worker ("save pass panicked: " ++ p.message)), f)
  countPass result.1
  pure result

end SaveFile

end Keepsake
