import Keepsake.Text.Quoted
import Keepsake.World
/-!
# Storages

A storage keeps files in one folder. A file is replaced in two steps: the bytes go into a temporary
file beside it (`stage`), which is then moved onto it (`commit`). A temporary file that does not get
that far, be it for a failure or a panic, is discarded.

A storage may be exposed to the faults of the world. A call that is struck has no effect; a write
may also be struck between its two steps.
-/

namespace Keepsake

/-- A storage over a folder. -/
structure Storage where
  base : String
  /-- whether the faults of the world strike it -/
  exposed : Bool
deriving DecidableEq

namespace Storage

variable {ω : Type}

/-- A storage that no fault strikes. -/
def plain (base : String) : Storage := ⟨base, false⟩

/-- The path of a file. -/
def pathOf (s : Storage) (name : String) : String := Path.join s.base name

/-- The folder of a storage. -/
def home (s : Storage) (d : Disk) : Except DiskFault Path :=
  if s.base.isEmpty then .ok d.here
  else match d.locate s.base with
    | .error e => .error e
    | .ok (.folder dir) => .ok dir
    | .ok (.entry dir file) =>
      if (d.file? dir file).isSome then .error .notADirectory else .error .notFound

/-- What a name leads to. -/
def locate (s : Storage) (d : Disk) (name : String) : Except DiskFault Place := d.locateIn s.base name

/-! ## Calls -/

/-- Makes a call, which a fault may strike before it begins or, at `late`, while it goes on. -/
def callInSteps {α : Type} (s : Storage) (c : Call)
    (x : (late : Outcome Failure Unit) → Act ω Failure α) : Act ω Failure α := fun w =>
  match if s.exposed then w.plan w.calls c else none with
  | none => x (.ok ()) w.called
  | some (.fail f) => (.fail f, w.called)
  | some (.panic p) => (.panic p, w.called)
  | some (.failStaged f) => x (.fail f) w.called
  | some (.panicStaged p) => x (.panic p) w.called

/-- Makes a call of a single step. -/
def call {α : Type} (s : Storage) (c : Call) (x : Act ω Failure α) : Act ω Failure α :=
  s.callInSteps c fun late => do
    Act.ofOutcome late
    x

/-- The failure of an operation on a file. -/
def failure (task : String) (e : DiskFault) : Failure := .storage (task ++ ": " ++ e.message)

/-- A fault of the disk as a failure. -/
def orFail {α : Type} (task : String) (x : Except DiskFault α) : Except Failure α :=
  match x with
  | .ok a => .ok a
  | .error e => .error (failure task e)

/-! ## Temporary files -/

/-- The name of the temporary file for a file, with the letters that it got. -/
def temporaryNameWith (letters : List Char) (name : String) : String :=
  "." ++ name ++ "." ++ String.ofList letters ++ ".tmp"

/-- The name of the temporary file for a file where messages have it, without its letters. -/
def temporaryName (name : String) : String := temporaryNameWith "XXXXXX".toList name

/-- The letters that are tried at the `n`th time; before the millionth time these are six. -/
def temporaryLetters (n : Nat) : List Char :=
  let digits := if n = 0 then [] else Decimal.digitChars n
  List.replicate (6 - digits.length) 'X' ++ digits

/--
Where the temporary file with a name is. That its name is short enough is seen of the six letters.
-/
def temporaryPlace (s : Storage) (d : Disk) (temporary : String) : Except DiskFault Place :=
  if Disk.isPlainName temporary then (s.home d).map (Place.entry · temporary)
  else s.locate d temporary

/-- The first name from the `n`th letters on under which nothing is there yet. -/
def freshTemporary? (s : Storage) (d : Disk) (name : String) (n : Nat) : Nat → Option String
  | 0 => none
  | tries + 1 =>
    let temporary := temporaryNameWith (temporaryLetters n) name
    if d.isTaken (s.temporaryPlace d temporary) then freshTemporary? s d name (n + 1) tries
    else some temporary

/-- The failure of a temporary file that cannot be made. -/
def stagingFailure (s : Storage) (name : String) (e : DiskFault) : Failure :=
  .storage ("Failed to create temporary file in " ++ s.base ++ ": " ++ e.message ++ " at path " ++
    quoted (s.pathOf (temporaryName name)))

/-- The failure of a temporary file that gets no name of its own. -/
def crowdedFailure (s : Storage) : Failure :=
  .storage ("Failed to create temporary file in " ++ s.base ++
    ": too many temporary files exist at path " ++ quoted s.base)

/-- The name that the next temporary file for a file gets. -/
def chooseTemporary (s : Storage) (d : Disk) (name : String) : Except Failure String :=
  match s.locate d (temporaryName name) with
  | .error e => .error (s.stagingFailure name e)
  | .ok _ => match s.freshTemporary? d name 0 (d.entryCount + 1) with
    | some temporary => .ok temporary
    | none => .error s.crowdedFailure

/-- Makes the temporary file for a file; gives its name. -/
def stage (s : Storage) (data : ByteArray) (name : String) : Act ω Failure String := do
  let d ← Act.get World.disk
  let temporary ← Act.ofExcept (s.chooseTemporary d name)
  Act.onDisk fun d => match d.write (s.temporaryPlace d temporary) data with
    | .ok d => .ok d
    | .error e => .error (s.stagingFailure name e)
  pure temporary

/-- What replacing a file is called in messages. -/
def renamingTask (s : Storage) (name : String) : String :=
  "Failed to rename temporary file onto " ++ s.pathOf name

/-- Takes a temporary file away. -/
def discard (s : Storage) (temporary : String) : Act ω Failure Unit :=
  Act.onDisk fun d => match d.delete (s.temporaryPlace d temporary) with
    | .ok d => .ok d
    | .error _ => .ok d

/-- Moves a temporary file onto a file; it is gone also if that fails. -/
def commit (s : Storage) (temporary name : String) : Act ω Failure Unit :=
  Act.cleaning (s.discard temporary : Act ω Failure Unit)
    (Act.onDisk fun d => orFail (s.renamingTask name)
      (d.rename (s.temporaryPlace d temporary) (s.locate d name)))

/-! ## The operations -/

/-- Replaces a file. -/
def write (s : Storage) (data : ByteArray) (name : String) : Act ω Failure Unit :=
  s.callInSteps .write fun late => do
    let temporary ← s.stage data name
    Act.cleaning (s.discard temporary : Act ω Failure Unit) (Act.ofOutcome late)
    s.commit temporary name

/-- Reads a file. -/
def load (s : Storage) (name : String) : Act ω Failure ByteArray :=
  s.call .load do
    let d ← Act.get World.disk
    Act.ofExcept (orFail ("Failed to read save file " ++ s.pathOf name) (d.read (s.locate d name)))

/-- Whether a file is there. -/
def contains (s : Storage) (d : Disk) (name : String) : Bool := d.isFile (s.locate d name)

/-- Asks whether a file is there. The answer is never a failure, but a panic may strike the call. -/
def probe {ε : Type} (s : Storage) (name : String) : Act ω ε Bool := fun w =>
  match if s.exposed then w.probes w.calls else none with
  | none => (.ok (s.contains w.disk name), w.called)
  | some p => (.panic p, w.called)

/-- Copies a file over another. -/
def copy (s : Storage) (source target : String) : Act ω Failure Unit :=
  s.call .copy
    (Act.onDisk fun d =>
      orFail ("Failed to copy " ++ s.pathOf source ++ " to " ++ s.pathOf target)
        (d.copy (s.locate d source) (s.locate d target)))

/-- Deletes a file; one that is not there is no failure. -/
def delete (s : Storage) (name : String) : Act ω Failure Unit :=
  s.call .delete
    (Act.onDisk fun d => orFail ("Failed to delete " ++ s.pathOf name) (d.delete (s.locate d name)))

/-- The names of all files, ascending. -/
def list (s : Storage) : Act ω Failure (List String) :=
  s.call .list do
    let d ← Act.get World.disk
    Act.ofExcept (orFail ("Failed to list " ++ s.base) (d.list (d.locate s.base)))

end Storage

end Keepsake
