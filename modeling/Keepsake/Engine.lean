import Keepsake.Engine.Load
import Keepsake.Engine.Save
import Keepsake.Registry
/-!
# The engine

An engine is a registry with a storage. `tick` saves the enabled save-files that are due and have
changed, `flush` saves all of them as they are, `loadAll` restores them. The save-files are taken
in the order of their names, and what happens to one does not keep the others from their turn. A
disabled engine does none of the three.
-/

namespace Keepsake

/-- A registry with a storage. -/
structure Engine (ω : Type) where
  registry : Registry ω
  storage : Storage

namespace Engine

variable {ω ε : Type}

/-- An engine over a registry whose settings are still sound. -/
def ofRegistry (d : Disk) (r : Registry ω) (s : Storage) : Except Failure (Engine ω) := do
  r.settings.check d
  pure ⟨r, s⟩

/-- Whether an engine does anything. -/
def isEnabled (e : Engine ω) : Bool := e.registry.settings.enabled

/-- The format of an engine's save files. -/
def format (e : Engine ω) : Format := e.registry.settings.format

/-! ## Saving -/

/-- The two kinds of passes: those at a tick write changes only, those of a flush write all. -/
inductive PassKind where
  | tick
  | flush
deriving DecidableEq

/-- Logs the result of a pass that did not save. -/
def tellPass (kind : PassKind) (file : String) : PassResult → Act ω ε Unit
  | .saved => pure ()
  | .unchanged => match kind with
    | .tick => Act.tell .engine .debug "unchanged, skipping save" [("file", .text file)]
    | .flush => pure ()
  | .failed f => match kind with
    | .tick =>
      Act.tell .engine .warn "save failed, will retry"
        [("file", .text file), ("error", .text f.message)]
    | .flush =>
      Act.tell .engine .error "final save failed"
        [("file", .text file), ("error", .text f.message)]

/-- Makes passes over the chosen save-files; gives the names of those saved, and all save-files. -/
def runPasses (s : Storage) (format : Format) (kind : PassKind) (now : Nat)
    (chosen : SaveFile ω → Bool) :
    List (String × SaveFile ω) → NameMap (SaveFile ω) → Act ω ε (List String × NameMap (SaveFile ω))
  | [], files => pure ([], files)
  | (name, f) :: rest, files =>
    if chosen f then do
      let (result, f) ← f.pass s format now (kind = .tick)
      tellPass kind f.name result
      let (names, files) ← runPasses s format kind now chosen rest (files.insert name f)
      pure (if result = .saved then f.name :: names else names, files)
    else runPasses s format kind now chosen rest files

/-- Makes passes over the chosen save-files of an engine, unless it is disabled. -/
def passes (e : Engine ω) (kind : PassKind) (now : Nat) (chosen : SaveFile ω → Bool) :
    Act ω ε (List String × Engine ω) :=
  if e.isEnabled then do
    let (names, files) ←
      runPasses e.storage e.format kind now chosen e.registry.files.entries e.registry.files
    pure (names, { e with registry := { e.registry with files } })
  else pure ([], e)

/-- Saves the enabled save-files that are due and have changed; gives their names. -/
def tick (e : Engine ω) (now : Nat) : Act ω ε (List String × Engine ω) :=
  e.passes .tick now fun f => f.settings.enabled && f.isDue now

/--
Saves all enabled save-files, and the disabled ones if the settings say so; gives their names.
-/
def flush (e : Engine ω) (now : Nat) : Act ω ε (List String × Engine ω) :=
  e.passes .flush now fun f => f.settings.enabled || e.registry.settings.flushDisabled

/-! ## Loading -/

/-- Restores one save-file. -/
def load (e : Engine ω) (name : String) : Act ω Failure LoadOutcome :=
  match e.registry.files.get? name with
  | some f => f.load e.storage e.format
  | none => Act.fail (Registry.unknownFile name)

/-- Restores save-files one after the other; gives the outcome of each. -/
def loadFiles (e : Engine ω) : List (String × SaveFile ω) →
    Act ω ε (List (String × Except Failure LoadOutcome))
  | [] => pure []
  | (_, f) :: rest =>
    if f.settings.enabled then do
      let outcome ← Act.attempt (f.load e.storage e.format)
      match outcome with
      | .ok _ => pure ()
      | .error err =>
        Act.tell .engine .error "load abandoned" [("file", .text f.name), ("error", .text err.message)]
      let outcomes ← e.loadFiles rest
      pure ((f.name, outcome) :: outcomes)
    else e.loadFiles rest

/-- Restores all enabled save-files; gives the outcome of each. -/
def loadAll (e : Engine ω) : Act ω ε (List (String × Except Failure LoadOutcome)) :=
  if e.isEnabled then e.loadFiles e.registry.files.entries
  else do
    Act.tell .engine .debug "autosave disabled, skipping load" []
    pure []

end Engine

end Keepsake
