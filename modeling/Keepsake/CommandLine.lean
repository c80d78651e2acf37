import Keepsake.Backup
import Keepsake.CommandLine.Arguments
import Keepsake.CommandLine.Size
import Keepsake.Text.Table
/-!
# The command line

The program looks after a folder of save files: it lists them, shows the entries of one, checks
that one can be read, and lists or prunes the backups of one. `answer` says what it prints, how it
ends, and what becomes of the files; `run` also reads the arguments and asks the question before.
-/

namespace Keepsake.CommandLine

/-! ## What is found and what is answered -/

/-- Size and last change of a file. -/
structure FileDetails where
  bytes : Nat
  /-- seconds after the start of 1970, universal time -/
  modified : Int
deriving DecidableEq

/-- What the program finds when it is started. -/
structure Surroundings where
  disk : Disk
  /-- sizes and last changes, by the text of a file's path -/
  details : NameMap FileDetails
  /-- the folder to look after where none is given -/
  usual : Option String
  /-- what the user types -/
  input : String

/-- How the program ends. -/
structure Ending where
  output : String
  /-- what is told besides the output -/
  complaint : Option String
  code : Nat
  disk : Disk

/-- What a command prints before it is done or fails. -/
structure Report where
  output : String
  failure : Option Failure
deriving DecidableEq

namespace Report

/-- Lines that end well. -/
def ofLines (lines : List String) : Report := ⟨String.join (lines.map (· ++ "\n")), none⟩

/-- The report of a task, from its answer. -/
def ofAnswer {α : Type} (answer : Except Failure α) (f : α → Report) : Report :=
  match answer with
  | .ok a => f a
  | .error e => ⟨"", some e⟩

end Report

/-! ## Commands -/

/-- A place of work: a storage, the format of its save files, and what is known of its files. -/
structure Workplace where
  storage : Storage
  format : Format
  found : Surroundings

namespace Workplace

variable {ε : Type}

/-- Reads a save file. -/
def readSave (p : Workplace) (name : String) : Act Unit Failure Snapshot := do
  let data ← p.storage.load (canonicalName name)
  Act.ofExcept (p.format.decode data)

/-- Size and last change of a file. -/
def detailsOf (p : Workplace) (file : String) : Option FileDetails :=
  match p.storage.locate p.found.disk file with
  | .ok (.entry dir name) => p.found.details.get? (Path.text (dir ++ [name]))
  | _ => none

/-- The size of a file as shown. -/
def sizeOf (p : Workplace) (file : String) : String :=
  match p.detailsOf file with
  | some f => sizeText f.bytes
  | none => "Unknown"

/-- The last change of a file as shown. -/
def changeOf (p : Workplace) (file : String) : String :=
  match p.detailsOf file with
  | some f => (Stamp.ofUnixSeconds f.modified).text
  | none => "Unknown"

/-- The row of each save file. -/
def saveRows (p : Workplace) : List String → Act Unit Failure (List (List String))
  | [] => pure []
  | name :: rest => do
    let entries ← match ← Act.attempt (p.readSave name) with
      | .ok s => pure (Decimal.text s.size)
      | .error _ => pure "unreadable"
    let rows ← p.saveRows rest
    pure ([name, entries, p.sizeOf (canonicalName name), p.changeOf (canonicalName name)] :: rows)

/-- Lists the save files. -/
def list (p : Workplace) : Act Unit ε Report := do
  let rows ← Act.attempt do p.saveRows ((← p.storage.list).filterMap savedName?)
  pure (Report.ofAnswer rows fun rows =>
    if rows.isEmpty then Report.ofLines ["No save files found"]
    else Report.ofLines (Table.lines (["Name", "Entries", "Size", "Modified"] :: rows)))

/-- Shows the entries of a save file. -/
def view (p : Workplace) (name : String) : Act Unit ε Report := do
  let snapshot ← Act.attempt (p.readSave name)
  pure (Report.ofAnswer snapshot fun s =>
    if s.isEmpty then Report.ofLines ["Save file '" ++ name ++ "' has no entries"]
    else Report.ofLines (Table.lines
      (["Key", "Kind", "Value"] :: s.entries.map fun e => [e.1, e.2.kind.name, e.2.display])))

/-- Checks that a save file can be read. -/
def verify (p : Workplace) (name : String) : Act Unit ε Report := do
  let snapshot ← Act.attempt (p.readSave name)
  pure (Report.ofAnswer snapshot fun s =>
    Report.ofLines ["✓ " ++ canonicalName name ++ " decodes as " ++ p.format.name ++ " with " ++
      Decimal.text s.size ++ " entries"])

/-- When a backup was taken, as shown. -/
def takenText (e : BackupEntry) : String :=
  match e.takenAt with
  | none => "rotating"
  | some stamp =>
    if e.counter = 0 then stamp.text else stamp.text ++ " (#" ++ Decimal.text e.counter ++ ")"

/-- Lists the backups of a save-file. -/
def backups (p : Workplace) (name : String) : Act Unit ε Report := do
  let entries ← Act.attempt (listBackups p.storage name)
  pure (Report.ofAnswer entries fun entries =>
    if entries.isEmpty then Report.ofLines ["No backups found for '" ++ name ++ "'"]
    else Report.ofLines (Table.lines
      (["File", "Taken", "Size"] :: entries.map fun e => [e.file, takenText e, p.sizeOf e.file])))

/-- Whether the first line that the user types is a yes. -/
def isConsent (input : String) : Bool :=
  match (input.toList.takeWhile (· ≠ '\n')).dropWhile isWhiteSpace with
  | c :: _ => c = 'y' || c = 'Y'
  | [] => false

/-- Deletes the oldest backups of a save-file, if the user agrees or was not asked. -/
def prune (p : Workplace) (name : String) (keep : Nat) (force : Bool) : Act Unit ε Report := do
  if force || isConsent p.found.input then do
    let deleted ← Act.attempt (pruneBackups p.storage name keep)
    pure (Report.ofAnswer deleted fun names =>
      Report.ofLines ["✓ Deleted " ++ Decimal.text names.length ++ " backup(s)"])
  else pure (Report.ofLines ["Prune cancelled"])

/-- Does what a command says. -/
def perform (p : Workplace) : Command → Act Unit ε Report
  | .list => p.list
  | .view name => p.view name
  | .verify name => p.verify name
  | .backups name => p.backups name
  | .prune name keep force => p.prune name keep force

end Workplace

/-! ## The program -/

/-- How the program is used. -/
def usage : String := "Inspect and maintain autosave directories

Usage: autosave [OPTIONS] <COMMAND>

Commands:
  list     List the save files in the directory
  show     Show the entries of a save file
  verify   Check that a save file decodes
  backups  List the backups of a save file
  prune    Delete all but the newest timestamped backups of a save file
  help     Print this message or the help of the given subcommand(s)

Options:
  -v, --verbose          Enable verbose logging
  -d, --dir <DIR>        Autosave directory [env: AUTOSAVE_DIR=] [default: .]
  -f, --format <FORMAT>  Encoding of the save files [default: yaml] [possible values: json, yaml]
  -h, --help             Print help
  -V, --version          Print version
"

/-- A world of files alone. -/
def worldOf (d : Disk) : World Unit where
  vars := ()
  disk := d
  clock := Stamp.ofUnixSeconds 0
  calls := 0
  plan := fun _ _ => none
  log := []
  metrics := Metrics.zero

/-- An ending with a complaint. -/
def failing (output message : String) (d : Disk) : Ending := ⟨output, some ("Error: " ++ message), 1, d⟩

/-- Whether there is the folder that a request is about. -/
def hasFolder (d : Disk) (r : Request) : Bool := d.isFolder (d.locate r.directory)

/-- What the user is asked before a request is met; nothing where there is no question. -/
def question (d : Disk) (r : Request) : String :=
  match r.command with
  | .prune name keep false =>
    if hasFolder d r then
      "Delete all but the newest " ++ Decimal.text keep ++ " timestamped backups of '" ++ name ++
        "'? (y/N): "
    else ""
  | _ => ""

/-- Does what is asked for; the question is not repeated in the output. -/
def answer (found : Surroundings) (r : Request) : Ending :=
  if !hasFolder found.disk r then
    failing "" ("autosave directory not found: " ++ r.directory) found.disk
  else
    let place : Workplace := ⟨Storage.plain r.directory, r.format, found⟩
    match (place.perform r.command : Act Unit Failure Report) (worldOf found.disk) with
    | (.ok report, w) => match report.failure with
      | none => ⟨report.output, none, 0, w.disk⟩
      | some f => failing report.output f.message w.disk
    | (.fail f, w) => failing "" f.message w.disk
    | (.panic p, w) => failing "" p.message w.disk

/-- How the program ends if the arguments are no request. -/
def stopped (d : Disk) : Stop → Ending
  | .wrongUse => ⟨"", some usage, 2, d⟩
  | .help => ⟨usage, none, 0, d⟩
  | .version => ⟨"autosave 0.1.0\n", none, 0, d⟩

/-- What the program comes to with the given arguments. -/
def run (found : Surroundings) (args : List String) : Ending :=
  match Request.ofArguments found.usual args with
  | .error stop => stopped found.disk stop
  | .ok r =>
    let ending := answer found r
    { ending with output := question found.disk r ++ ending.output }

end Keepsake.CommandLine
