import Keepsake.Settings
import Keepsake.Variable
import Keepsake.World
/-!
# Save-files

A save-file is a group of accessors that are saved together. It remembers its last save: what was
written and when. It is due when it was never saved or when its period has passed since.
-/

namespace Keepsake

/-- A save that succeeded. -/
structure Save where
  snapshot : Snapshot
  /-- nanoseconds on the monotonic clock -/
  time : Nat
deriving DecidableEq

/-- A group of accessors that are saved together. -/
structure SaveFile (ω : Type) where
  settings : FileSettings
  accessors : NameMap (Accessor ω)
  /-- the last saved snapshot and its time; only a save sets them, so they are one field -/
  lastSave : Option Save

namespace SaveFile

variable {ω ε : Type}

/-- A save-file without accessors. -/
def ofSettings (settings : FileSettings) : SaveFile ω := ⟨settings, NameMap.empty, none⟩

/-- The name of a save-file. -/
def name (f : SaveFile ω) : String := f.settings.name

/-- Whether the save period has passed since the last save. -/
def isDue (f : SaveFile ω) (now : Nat) : Bool :=
  match f.lastSave with
  | none => true
  | some last => decide (f.settings.period ≤ now - last.time)

/-- The failure of a key that is taken. -/
def duplicateKey (f : SaveFile ω) (key : String) : Failure :=
  .config ("accessor '" ++ key ++ "' is already registered in save-file '" ++ f.name ++ "'")

/-- Adds an accessor under a new key. -/
def addAccessor (f : SaveFile ω) (key : String) (a : Accessor ω) : Except Failure (SaveFile ω) :=
  if f.accessors.contains key then .error (f.duplicateKey key)
  else .ok { f with accessors := f.accessors.insert key a }

/-- Reads accessors one after the other; one that fails is logged and left out. -/
def readEntries (file : String) : List (String × Accessor ω) → Act ω ε (List (String × Value))
  | [] => pure []
  | (key, a) :: rest => do
    match ← Act.settle (Act.onVars a.get) with
    | .ok v => do
      let entries ← readEntries file rest
      pure ((key, v) :: entries)
    | .fail e => do
      Act.tell .registry .warn "leaving value out of snapshot"
        [("file", .text file), ("error", .text (Failure.access key e).message)]
      readEntries file rest
    | .panic p => fun w => (.panic p, w)

/-- Reads every accessor into a new snapshot. -/
def readSnapshot (f : SaveFile ω) : Act ω ε Snapshot := do
  let entries ← readEntries f.name f.accessors.entries
  pure (NameMap.ofList entries)

/-- A save-file as in structured dumps. -/
def dump (f : SaveFile ω) : String :=
  let snapshot := match f.lastSave with
    | some last => "Some(" ++ last.snapshot.dump ++ ")"
    | none => "None"
  let time := if f.lastSave.isSome then "Some(Instant)" else "None"
  "SaveFile \x7b config: " ++ f.settings.dump ++ ", accessors: " ++
    Value.bracketed (f.accessors.keys.map quoted) ++ ", last_saved_snapshot: " ++ snapshot ++
    ", last_saved_time: " ++ time ++ " \x7d"

end SaveFile

end Keepsake
