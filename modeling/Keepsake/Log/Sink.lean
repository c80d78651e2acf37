import Keepsake.Failure
import Keepsake.Json.Writer
import Keepsake.Log.Filter
import Keepsake.Stamp
/-!
# Where log events go

A sink writes the events that pass its filter, a line each, as plain text or as JSON. There is at
most one sink: once it is installed, another one is refused.
-/

namespace Keepsake

namespace LogEvent

/-- The time of an event, to the microsecond. -/
def timeChars (now : Stamp) : List Char := now.longChars 'T' ++ ".000000Z".toList

/-- An event as plain text: its level in five columns, its message, its fields. -/
def plainLine (now : Stamp) (e : LogEvent) : String :=
  let level := List.replicate (5 - e.level.name.length) ' ' ++ e.level.name.toList
  let fields := e.fields.map fun f => " " ++ f.1 ++ "=" ++ f.2.display
  String.ofList (timeChars now ++ ' ' :: level) ++ " " ++ e.message ++ String.join fields

/-- What a field holds, as JSON. -/
def fieldChars : LogValue → List Char
  | .text s => Json.stringChars s.toList
  | .number n => Decimal.digitChars n

/-- An event as JSON. -/
def jsonLine (now : Stamp) (e : LogEvent) : String :=
  let message := ("message", Json.stringChars e.message.toList)
  String.ofList (Json.compactObject [
    ("timestamp", Json.stringChars (timeChars now)),
    ("level", Json.stringChars e.level.name.toList),
    ("fields", Json.compactObject (message :: e.fields.map fun f => (f.1, fieldChars f.2)))])

end LogEvent

/-- A sink for events. -/
structure LogSink where
  filter : LogFilter
  json : Bool
deriving DecidableEq

namespace LogSink

/-- The lines that a sink writes for events. -/
def lines (s : LogSink) (now : Stamp) (events : List LogEvent) : List String :=
  (events.filter s.filter.admits).map (if s.json then LogEvent.jsonLine now else LogEvent.plainLine now)

/-- The event that a sink begins with. -/
def greeting : LogEvent := ⟨.observability, .debug, "autosave observability initialized", []⟩

/-- Installs a sink, if there is none. -/
def install (present : Option LogSink) (s : LogSink) : Except Failure LogSink :=
  if present.isSome then
    .error (.config ("failed to set tracing subscriber: " ++
      "a global default trace dispatcher has already been set"))
  else .ok s

end LogSink

end Keepsake
