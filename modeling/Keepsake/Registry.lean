import Keepsake.SaveFile
/-!
# Registries

A registry holds the save-files of an engine by name, and the settings that concern all of them.
Each operation either adds all that it was asked to add or leaves the registry as it was.
-/

namespace Keepsake

/-- Save-files by name, and the settings of the engine, whose list of save-files is empty. -/
structure Registry (ω : Type) where
  settings : Settings
  files : NameMap (SaveFile ω)

namespace Registry

variable {ω : Type}

/-- The save-file used where none is named. -/
def usualFile : String := "auto"

/-- A registry with a save-file for each of the settings. -/
def ofSettings (d : Disk) (s : Settings) : Except Failure (Registry ω) := do
  s.check d
  pure ⟨{ s with files := [] }, NameMap.ofList (s.files.map fun f => (f.name, SaveFile.ofSettings f))⟩

/-- The failure of a save-file that is not there. -/
def unknownFile (name : String) : Failure :=
  .config ("save-file '" ++ name ++ "' has not been configured")

/-- Adds a save-file. -/
def addFile (r : Registry ω) (f : FileSettings) : Except Failure (Registry ω) := do
  f.check
  if r.files.contains f.name then throw (duplicateName f.name)
  pure { r with files := r.files.insert f.name (SaveFile.ofSettings f) }

/-- The save-file that a registration is for, with its name. -/
def fileFor (r : Registry ω) (file : Option String) : Except Failure (String × SaveFile ω) :=
  let name := file.getD usualFile
  match r.files.get? name with
  | some f => .ok (name, f)
  | none => .error (unknownFile name)

/-- Registers an accessor under a key. -/
def addAccessor (r : Registry ω) (file : Option String) (key : String) (a : Accessor ω) :
    Except Failure (Registry ω) := do
  let (name, f) ← r.fileFor file
  let f ← f.addAccessor key a
  pure { r with files := r.files.insert name f }

/-! ## Variables with fields -/

/-- The key of a field; the value itself has the key of its variable. -/
def keyOf (name field : String) : String := if field = valueField then name else name ++ "." ++ field

/-- The keys that registering a variable takes, each with the field behind it. -/
def plannedKeys (name : String) (saveValue : Bool) (fields : List String) :
    List (String × Option String) :=
  (if saveValue then [(name, none)] else []) ++ fields.map fun field => (keyOf name field, some field)

/-- The first of the planned keys that is taken, by an accessor or by a plan before it. -/
def firstTaken? (f : SaveFile ω) (seen : List String) : List (String × Option String) → Option String
  | [] => none
  | (key, _) :: rest =>
    if key ∈ seen ∨ f.accessors.contains key then some key else firstTaken? f (key :: seen) rest

/-- Adds the accessors of planned keys. -/
def addPlanned (x : Variable ω) (f : SaveFile ω) :
    List (String × Option String) → Except Failure (SaveFile ω)
  | [] => .ok f
  | (key, field) :: rest => do
    let f ← f.addAccessor key (Accessor.of x field)
    addPlanned x f rest

/--
Registers a variable's value, if asked to, and its fields. All keys are checked before one is
added.
-/
def addVariable (r : Registry ω) (file : Option String) (name : String) (x : Variable ω)
    (saveValue : Bool) (fields : List String) : Except Failure (Registry ω) := do
  let (fileName, f) ← r.fileFor file
  let planned := plannedKeys name saveValue fields
  match firstTaken? f [] planned with
  | some key => throw (f.duplicateKey key)
  | none => do
    let f ← addPlanned x f planned
    pure { r with files := r.files.insert fileName f }

/-- A registry as in structured dumps. -/
def dump (r : Registry ω) : String :=
  "Registry \x7b config: " ++ r.settings.dump ++ ", files: \x7b" ++
    String.intercalate ", " (r.files.entries.map fun e => quoted e.1 ++ ": " ++ e.2.dump) ++ "\x7d \x7d"

end Registry

end Keepsake
