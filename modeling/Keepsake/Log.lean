import Keepsake.Number.Decimal
/-!
# Log events

An operation tells what it does by events: the part that tells it, a level, a message, and named
fields. Which events are shown, and how, is not decided here.
-/

namespace Keepsake

/-- How grave an event is, the gravest last. -/
inductive LogLevel where
  | trace | debug | info | warn | error
deriving DecidableEq

namespace LogLevel

/-- The name of a level. -/
def name : LogLevel → String
  | trace => "TRACE"
  | debug => "DEBUG"
  | info => "INFO"
  | warn => "WARN"
  | error => "ERROR"

/-- A number that grows with the gravity. -/
def rank : LogLevel → Nat
  | trace => 0
  | debug => 1
  | info => 2
  | warn => 3
  | error => 4

end LogLevel

/-- What a field holds. -/
inductive LogValue where
  | text (s : String)
  | number (n : Nat)
deriving DecidableEq

/-- The text of a field. -/
def LogValue.display : LogValue → String
  | text s => s
  | number n => Decimal.text n

/-- The parts that tell events. -/
inductive LogSource where
  | backup | engine | loader | observability | persister | registry | worker
deriving DecidableEq

/-- The path of a part, by which filters choose events. -/
def LogSource.path : LogSource → String
  | backup => "autosave_core::backup"
  | engine => "autosave_core::engine"
  | loader => "autosave_core::loader"
  | observability => "autosave_core::observability"
  | persister => "autosave_core::persister"
  | registry => "autosave_core::registry"
  | worker => "autosave_core::worker"

/-- An event. -/
structure LogEvent where
  source : LogSource
  level : LogLevel
  message : String
  fields : List (String × LogValue)
deriving DecidableEq

end Keepsake
