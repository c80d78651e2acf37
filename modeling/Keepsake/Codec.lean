import Keepsake.Failure
import Keepsake.Json.Reader
import Keepsake.Json.Writer
import Keepsake.Yaml.Reader
import Keepsake.Yaml.Writer
/-!
# Formats of save files

A snapshot is written in one of two formats. Writing depends on the snapshot alone, so equal
snapshots make equal files. Reading takes a file as a whole or not at all.
-/

namespace Keepsake

/-- The formats of save files. -/
inductive Format where
  | json
  | yaml
deriving DecidableEq, Inhabited

namespace Format

/-- The name of a format, in configurations and in messages. -/
def name : Format → String
  | json => "json"
  | yaml => "yaml"

/-- The name of a format in structured dumps. -/
def dump : Format → String
  | json => "Json"
  | yaml => "Yaml"

/-- The bytes of a text. -/
def bytesOf (cs : List Char) : ByteArray := (String.ofList cs).toUTF8

/-- The text of bytes, if they are one. -/
def textOf? (data : ByteArray) : Option (List Char) := (String.fromUTF8? data).map String.toList

/-- Writes a snapshot. JSON has no form for a float that is no real number. -/
def encode (f : Format) (s : Snapshot) : Except Failure ByteArray :=
  match f with
  | json => match s.nonFiniteKey? with
    | some key => .error (.format ("JSON cannot represent the non-finite value of '" ++ key ++ "'"))
    | none => .ok (bytesOf (Json.openSnapshot s))
  | yaml => .ok (bytesOf (Yaml.snapshotChars s))

/-- Whether bytes hold nothing but white space. -/
def isBlankData (data : ByteArray) : Bool := data.toList.all isAsciiBlank

/-- Reads a snapshot. In YAML, nothing is the empty snapshot. -/
def decode (f : Format) (data : ByteArray) : Except Failure Snapshot :=
  match f with
  | json => match (textOf? data).bind Json.readSnapshot with
    | some s => .ok s
    | none => .error (.format "JSON decoding failed")
  | yaml =>
    if isBlankData data then .ok NameMap.empty
    else match (textOf? data).bind Yaml.readSnapshot with
      | some s => .ok s
      | none => .error (.format "YAML decoding failed")

/-- Reads a document that holds a single value. -/
def decodeValue (f : Format) (data : ByteArray) : Option Value :=
  match f with
  | json => (textOf? data).bind Json.readValueDocument
  | yaml => (textOf? data).bind Yaml.readValueDocument

end Format

end Keepsake
