import Keepsake.Backup
import Keepsake.SaveFile
/-!
# Loading

A load backs up the save file, reads it as a whole, and writes each entry through its accessor.
Entries do not depend on each other: one without an accessor, or whose accessor fails, is reported
and the others are still written.
-/

namespace Keepsake

variable {ω ε : Type}

/-- What became of the entries of a save file. -/
structure LoadReport where
  /-- keys whose values were written -/
  applied : List String
  /-- keys that no accessor is registered for -/
  unknownKeys : List String
  /-- keys whose accessor failed -/
  failed : List (String × AccessFailure)
  /-- the backup taken before -/
  backup : Option String
deriving DecidableEq

namespace LoadReport

/-- Whether every entry was written. -/
def isClean (r : LoadReport) : Bool := r.unknownKeys.isEmpty && r.failed.isEmpty

end LoadReport

/-- What a load came to. -/
inductive LoadOutcome where
  | nothingToLoad
  | loaded (r : LoadReport)
deriving DecidableEq

namespace SaveFile

/-- Writes entries one after the other through their accessors. -/
def applyEntries (f : SaveFile ω) (backup : Option String) :
    List (String × Value) → Act ω ε LoadReport
  | [] => pure ⟨[], [], [], backup⟩
  | (key, v) :: rest =>
    match f.accessors.get? key with
    | none => do
      Act.tell .loader .warn "skipping entry"
        [("file", .text f.name), ("error", .text (Failure.unknownKey key).message)]
      let r ← f.applyEntries backup rest
      pure { r with unknownKeys := key :: r.unknownKeys }
    | some a => do
      match ← Act.settle (Act.onVars (a.set v)) with
      | .ok () => do
        let r ← f.applyEntries backup rest
        pure { r with applied := key :: r.applied }
      | .fail e => do
        Act.tell .loader .warn "failed to restore value"
          [("file", .text f.name), ("error", .text (Failure.access key e).message)]
        Act.count Metrics.addLoadKeyFailure
        let r ← f.applyEntries backup rest
        pure { r with failed := (key, e) :: r.failed }
      | .panic p => fun w => (.panic p, w)

/-- Backs up the save file before it is loaded, and logs a failure. -/
def backUpForLoad (f : SaveFile ω) (s : Storage) : Act ω ε (Option String) := do
  let now ← Act.get World.now
  match ← Act.attempt (takeBackup s f.name f.settings.backupMode now) with
  | .ok taken => pure taken
  | .error e => do
    Act.tell .loader .warn "backup before load failed"
      [("file", .text f.name), ("error", .text e.message)]
    pure none

/-- Restores a save-file from its file. -/
def load (f : SaveFile ω) (s : Storage) (format : Format) : Act ω Failure LoadOutcome := do
  let canonical := canonicalName f.name
  if ← s.probe canonical then do
    let backup ← f.backUpForLoad s
    let data ← s.load canonical
    let snapshot ← Act.ofExcept (format.decode data)
    let r ← f.applyEntries backup snapshot.entries
    Act.tell .loader .info "loaded save file"
      [("file", .text f.name), ("applied", .number r.applied.length),
       ("unknown", .number r.unknownKeys.length), ("failed", .number r.failed.length)]
    pure (.loaded r)
  else do
    Act.tell .loader .info "no save file, nothing to load"
      [("file", .text f.name), ("path", .text canonical)]
    pure .nothingToLoad

end SaveFile

end Keepsake
