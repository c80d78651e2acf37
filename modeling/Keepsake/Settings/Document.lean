import Keepsake.Settings
import Keepsake.Toml.Reader
/-!
# Settings read from a document

A document of settings is a TOML table. A key that is missing has its usual value, except for the
folder and the name of a save-file; keys that mean nothing here are passed over. A save-file may
also be given as an array of its settings in order, and a choice as a table of one entry that
holds nothing.
-/

namespace Keepsake

namespace Toml.Item

/-- A text. -/
def asText? : Item → Option String
  | text s => some s
  | _ => none

/-- A boolean. -/
def asBool? : Item → Option Bool
  | bool b => some b
  | _ => none

/-- A natural number. -/
def asNat? : Item → Option Nat
  | integer i => if 0 ≤ i then some i.toNat else none
  | _ => none

/-- A number as a float. -/
def asFloat? : Item → Option Binary64
  | integer i => some (Binary64.ofInt i)
  | float x => some x
  | _ => none

/-- Whether a table or an array holds nothing. -/
def isHollow : Item → Bool
  | array _ [] => true
  | table _ [] => true
  | _ => false

/-- The name of a choice: a text, or the key of a table whose only value holds nothing. -/
def asChoice? : Item → Option String
  | text s => some s
  | table _ [(key, item)] => if item.isHollow then some key else none
  | _ => none

/-- The items of an array. -/
def asItems? : Item → Option (List Item)
  | array _ items => some items
  | _ => none

end Toml.Item

open Toml (Item Entries)

/-- Reads what is there with `read`; what is not there has its usual value. -/
def orUsual {α : Type} (usual : α) (read : Item → Option α) : Option Item → Option α
  | none => some usual
  | some item => read item

/-- Reads the name of a format. -/
def Format.ofItem? (item : Item) : Option Format :=
  match item.asChoice? with
  | some "json" => some .json
  | some "yaml" => some .yaml
  | _ => none

/-- Reads the name of a backup mode. -/
def BackupMode.ofItem? (item : Item) : Option BackupMode :=
  match item.asChoice? with
  | some "none" => some .off
  | some "single_rotating" => some .rotating
  | some "timestamped" => some .timestamped
  | _ => none

namespace FileSettings

/--
Reads settings of a save-file from what is given for each of them; the usual ones fill the gaps.
-/
def ofFields? (name seconds mode enabled : Option Item) : Option FileSettings := do
  let name ← (← name).asText?
  let seconds ← orUsual usualSeconds Item.asFloat? seconds
  let backupMode ← orUsual .timestamped BackupMode.ofItem? mode
  let enabled ← orUsual true Item.asBool? enabled
  some ⟨name, seconds, backupMode, enabled⟩

/-- Reads settings of a save-file, from a table or from a row of them in their order. -/
def ofItem? : Item → Option FileSettings
  | .table _ es =>
    ofFields? (Entries.get? es "name") (Entries.get? es "period_secs") (Entries.get? es "backup_mode")
      (Entries.get? es "enabled")
  | .array _ items => ofFields? items[0]? items[1]? items[2]? items[3]?
  | _ => none

end FileSettings

namespace Settings

/-- Reads the save-files. -/
def filesOfItem? (item : Item) : Option (List FileSettings) :=
  item.asItems?.bind fun items => items.mapM FileSettings.ofItem?

/-- Reads settings from the entries of a document. -/
def ofEntries? (es : Entries) : Option Settings := do
  let directory ← (← es.get? "directory").asText?
  let enabled ← orUsual true Item.asBool? (es.get? "enabled")
  let pollMillis ← orUsual usualPollMillis Item.asNat? (es.get? "poll_interval_ms")
  let flushDisabled ← orUsual false Item.asBool? (es.get? "flush_disabled_on_shutdown")
  let format ← orUsual .yaml Format.ofItem? (es.get? "format")
  let files ← orUsual [] filesOfItem? (es.get? "files")
  some ⟨directory, enabled, pollMillis, flushDisabled, format, files⟩

/-- Reads settings from a document. -/
def read (text : String) : Except Failure Settings :=
  match (Toml.readDocument text.toList).bind ofEntries? with
  | some s => .ok s
  | none => .error (.config "invalid config")

/-- Reads settings from a file. -/
def ofFile (d : Disk) (path : String) : Except Failure Settings :=
  match d.read (d.locate path) with
  | .error e => .error (.config ("cannot read config " ++ path ++ ": " ++ e.message))
  | .ok data => match String.fromUTF8? data with
    | none => .error (.config ("cannot read config " ++ path ++ ": stream did not contain valid UTF-8"))
    | some text => read text

end Settings

end Keepsake
