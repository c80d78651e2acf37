import Keepsake.Codec
import Keepsake.Disk
/-!
# Settings

`FileSettings` are the settings of one save-file, `Settings` those of an engine. Spans of time are
counted in nanoseconds; the period of a save-file is given in seconds as a float and rounded to
the nearest nanosecond, a tie to the even one. A period that is no span of time is the longest
one.

`check` accepts exactly the settings an engine may run with. The folder is looked at only if the
engine is enabled.
-/

namespace Keepsake

/-! ## Spans of time -/

/-- Nanoseconds in a second. -/
def nanosPerSecond : Nat := 1000000000

/-- Nanoseconds in a millisecond. -/
def nanosPerMilli : Nat := 1000000

/-- The longest span of time: its seconds fit a word. -/
def longestSpan : Nat := wordSpan * nanosPerSecond - 1

/-- The span of time nearest to a number of seconds. -/
def spanOfSeconds (x : Binary64) : Nat :=
  if !x.isFinite ∨ (x.negative ∧ x.magnitude ≠ 0) then longestSpan
  else
    let n := Binary64.divNearest (x.units * nanosPerSecond) Binary64.unitsPerOne
    if longestSpan < n then longestSpan else n

/--
The seconds of a span of time; whole seconds and the rest are each rounded before they are added.
-/
def secondsOfSpan (n : Nat) : Binary64 :=
  (Binary64.ofNat (n / nanosPerSecond)).addAbs
    ((Binary64.ofNat (n % nanosPerSecond)).divAbs (Binary64.ofNat nanosPerSecond))

/-! ## Settings of a save-file -/

/-- What is kept of a save file before it is overwritten or loaded. -/
inductive BackupMode where
  /-- nothing -/
  | off
  /-- one backup, always the same file -/
  | rotating
  /-- a new backup each time, named for the moment -/
  | timestamped
deriving DecidableEq

namespace BackupMode

/-- The name of a mode in configurations. -/
def name : BackupMode → String
  | off => "none"
  | rotating => "single_rotating"
  | timestamped => "timestamped"

/-- The name of a mode in structured dumps. -/
def dump : BackupMode → String
  | off => "None"
  | rotating => "SingleRotating"
  | timestamped => "Timestamped"

end BackupMode

/-- Settings of one save-file. -/
structure FileSettings where
  name : String
  /-- the shortest time between two periodic saves, in seconds -/
  seconds : Binary64
  backupMode : BackupMode
  enabled : Bool
deriving DecidableEq

namespace FileSettings

/-- The seconds between two saves where none are given. -/
def usualSeconds : Binary64 := Binary64.ofNat 30

/-- Settings with a name and nothing else given. -/
def named (name : String) : FileSettings := ⟨name, usualSeconds, .timestamped, true⟩

/-- The shortest time between two periodic saves. -/
def period (f : FileSettings) : Nat := spanOfSeconds f.seconds

/-- Whether a name would lead out of the folder. -/
def isPathLike (name : String) : Bool :=
  name.toList.any (fun c => c = '/' || c = '\\') || name = "." || name = ".."

/-- Accepts the settings, or tells the first thing wrong with them. -/
def check (f : FileSettings) : Except Failure Unit :=
  if f.name.isEmpty then .error (.config "save-file name cannot be empty")
  else if isPathLike f.name then
    .error (.config ("save-file name '" ++ f.name ++ "' must not contain path separators"))
  else if !(f.seconds.isFinite && f.seconds.isPositive) then
    .error (.config ("save-file '" ++ f.name ++ "' needs a positive, finite save period"))
  else .ok ()

/-- The settings as JSON. -/
def jsonChars (f : FileSettings) : List Char :=
  Json.compactObject [
    ("name", Json.stringChars f.name.toList),
    ("period_secs", Json.floatChars f.seconds),
    ("backup_mode", Json.stringChars f.backupMode.name.toList),
    ("enabled", Json.boolChars f.enabled)]

/-- The settings as in structured dumps. -/
def dump (f : FileSettings) : String :=
  "SaveFileConfig \x7b name: " ++ quoted f.name ++ ", period_secs: " ++ Layout.inList.render f.seconds ++
    ", backup_mode: " ++ f.backupMode.dump ++ ", enabled: " ++ Value.word f.enabled ++ " \x7d"

end FileSettings

/-- The failure of a name that is taken. -/
def duplicateName (name : String) : Failure := .config ("duplicate save-file name '" ++ name ++ "'")

/-! ## Settings of an engine -/

/-- Settings of an engine. -/
structure Settings where
  /-- the folder of save files and backups -/
  directory : String
  enabled : Bool
  /-- milliseconds between two passes of the worker -/
  pollMillis : Nat
  /-- whether the last flush writes disabled save-files too -/
  flushDisabled : Bool
  format : Format
  files : List FileSettings
deriving DecidableEq

namespace Settings

/-- Milliseconds between two passes where none are given. -/
def usualPollMillis : Nat := 1000

/-- Settings with a folder and nothing else given. -/
def ofDirectory (directory : String) : Settings :=
  ⟨directory, true, usualPollMillis, false, .yaml, []⟩

/-- The whole milliseconds of a span of time, in 64 bits. -/
def millisOfSpan (n : Nat) : Nat := n / nanosPerMilli % wordSpan

/-- The time between two passes of the worker. -/
def pollSpan (s : Settings) : Nat := s.pollMillis * nanosPerMilli

/-- Accepts save-files that are sound and differ in their names, from those in `seen` too. -/
def checkFiles (seen : List String) : List FileSettings → Except Failure Unit
  | [] => .ok ()
  | f :: fs => do
    f.check
    if f.name ∈ seen then throw (duplicateName f.name)
    checkFiles (f.name :: seen) fs

/-- Accepts the settings, or tells the first thing wrong with them. -/
def check (d : Disk) (s : Settings) : Except Failure Unit := do
  if s.pollMillis = 0 then throw (.config "poll interval must be non-zero")
  checkFiles [] s.files
  if s.enabled then
    if s.directory.isEmpty then throw (.config "autosave directory is not set")
    if !d.isFolder (d.locate s.directory) then
      throw (.config (s.directory ++ " is not a valid autosave directory"))

/-- The settings as JSON. -/
def jsonChars (s : Settings) : List Char :=
  Json.compactObject [
    ("directory", Json.stringChars s.directory.toList),
    ("enabled", Json.boolChars s.enabled),
    ("poll_interval_ms", Decimal.digitChars s.pollMillis),
    ("flush_disabled_on_shutdown", Json.boolChars s.flushDisabled),
    ("format", Json.stringChars s.format.name.toList),
    ("files", '[' :: (Json.commaSeparated (s.files.map FileSettings.jsonChars) ++ [']']))]

/-- The settings as in structured dumps. -/
def dump (s : Settings) : String :=
  "AutosaveConfig \x7b directory: " ++ quoted s.directory ++ ", enabled: " ++ Value.word s.enabled ++
    ", poll_interval_ms: " ++ Decimal.text s.pollMillis ++ ", flush_disabled_on_shutdown: " ++
    Value.word s.flushDisabled ++ ", format: " ++ s.format.dump ++ ", files: [" ++
    String.intercalate ", " (s.files.map FileSettings.dump) ++ "] \x7d"

end Settings

end Keepsake
