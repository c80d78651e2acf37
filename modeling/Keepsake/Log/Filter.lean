import Keepsake.Log
import Keepsake.Text.Quoted
/-!
# Filters on log events

A filter is a list of rules. A rule speaks of the events of parts whose path starts with its
target, and, if it names a field, only of those that have it; it lets them pass from a level on.
Of the rules that speak of an event the most specific one decides: the one with the longest
target, of those one with a field. An event that no rule speaks of does not pass.

The text of a filter is a list of directives with commas between them: `target[span]=level`, each
of whose parts may be left out. A level is a word or a number; a directive without one lets
everything pass. There are no spans, so a directive with a span lets nothing pass.
-/

namespace Keepsake

/-- A rule on events. -/
structure LogRule where
  target : Option String
  /-- a field that an event must have -/
  field : Option String
  /-- the least grave level that passes, if any does -/
  level : Option LogLevel
deriving DecidableEq

namespace LogEvent

/-- The names of an event's fields; the message is one. -/
def fieldNames (e : LogEvent) : List String := "message" :: e.fields.map (·.1)

end LogEvent

namespace LogRule

/-- Whether a rule speaks of an event. -/
def concerns (r : LogRule) (e : LogEvent) : Bool :=
  r.target.all (fun t => e.source.path.startsWith t) && r.field.all e.fieldNames.contains

/-- Whether a rule lets a level pass. -/
def admits (r : LogRule) (l : LogLevel) : Bool := r.level.any fun least => decide (least.rank ≤ l.rank)

/-- How narrow the target of a rule is. -/
def targetRank (r : LogRule) : Nat := (r.target.map (·.utf8ByteSize + 1)).getD 0

/-- Whether a rule comes before another, being at least as specific. -/
def comesBefore (a b : LogRule) : Bool :=
  if a.targetRank ≠ b.targetRank then decide (b.targetRank < a.targetRank)
  else match a.field, b.field with
    | some x, some y => !decide (x < y)
    | none, some _ => false
    | _, none => true

/-! ## Directives -/

/-- The level that a text stands for; the inner `none` is the level that nothing reaches. -/
def readLevel (cs : List Char) : Option (Option LogLevel) :=
  match Decimal.readCount 6 cs with
  | some n => [none, some .error, some .warn, some .info, some .debug, some .trace][n]?
  | none => match String.ofList (cs.map Char.toLower) with
    | "off" => some none
    | "error" => some (some .error)
    | "warn" => some (some .warn)
    | "info" => some (some .info)
    | "debug" => some (some .debug)
    | "trace" => some (some .trace)
    | _ => none

/-- The level of a directive behind its equals sign; nothing stands for everything. -/
def readLimit (cs : List Char) : Option (Option LogLevel) :=
  if cs.isEmpty then some (some .trace) else readLevel cs

/-- Reads what may follow the bracketed part of a directive: nothing, or a level. -/
def readTail : List Char → Option (Option LogLevel)
  | [] => some (some .trace)
  | '=' :: cs => readLimit cs
  | _ => none

/--
Reads the bracketed part of a directive behind its opening bracket, and what follows. A span, or a
field with a value, makes it a directive on spans, which is no rule on events.
-/
def readBracket (target : Option String) (cs : List Char) : Option (List LogRule) :=
  let span := cs.takeWhile fun c => c ≠ ']' ∧ c ≠ '\x7b'
  match cs.dropWhile fun c => c ≠ ']' ∧ c ≠ '\x7b' with
  | ']' :: rest => (readTail rest).map fun _ => []
  | _ :: rest =>
    let field := rest.takeWhile (· ≠ '\x7d')
    match rest.dropWhile (· ≠ '\x7d') with
    | _ :: ']' :: rest =>
      if field.isEmpty then none
      else (readTail rest).map fun level =>
        if span.isEmpty ∧ !field.contains '=' then [⟨target, some (String.ofList field), level⟩] else []
    | _ => none
  | [] => none

/--
Whether a directive may start with a character; beyond ASCII all that is visible counts as a
letter.
-/
def isTargetStart (c : Char) : Bool :=
  c = '-' || c = ':' || c = '_' || c.isAlphanum || (decide (0x80 ≤ c.toNat) && isVisible c)

/-- Reads a directive without white space around it. -/
def readTrimmed (cs : List Char) : Option (List LogRule) :=
  match cs with
  | [] => none
  | '[' :: rest => readBracket none rest
  | first :: _ =>
    if !isTargetStart first then none
    else
      let target := cs.takeWhile fun c => c ≠ '=' ∧ c ≠ '['
      match cs.dropWhile fun c => c ≠ '=' ∧ c ≠ '[' with
      | '=' :: rest => (readLimit rest).map fun level => [⟨some (String.ofList target), none, level⟩]
      | _ :: rest => readBracket (some (String.ofList target)) rest
      | [] => match readLevel cs with
        | some level => some [⟨none, none, level⟩]
        | none => some [⟨some (String.ofList cs), none, some .trace⟩]

/--
Reads a directive. White space around one spoils it: a directive with a level is then refused, any
other is about a part that does not exist.
-/
def readDirective (cs : List Char) : Option (List LogRule) :=
  if trim cs = cs then readTrimmed cs
  else if cs.contains '=' then none
  else (readTrimmed (trim cs)).map fun _ => []

end LogRule

/-- A choice of events: its rules, the most specific ones first. -/
structure LogFilter where
  rules : List LogRule
deriving DecidableEq

namespace LogFilter

/-- The filter with given rules, of which a later one replaces an earlier one of the same kind. -/
def ofRules (rules : List LogRule) : LogFilter := ⟨rules.reverse.mergeSort LogRule.comesBefore⟩

/-- Reads the text of a filter. -/
def ofText? (s : String) : Option LogFilter :=
  let directives := (s.toList.splitOn ',').filter (!·.isEmpty)
  (directives.mapM LogRule.readDirective).map fun rules => ofRules rules.flatten

/-- Whether an event passes. -/
def admits (f : LogFilter) (e : LogEvent) : Bool :=
  (f.rules.find? (·.concerns e)).any (·.admits e.level)

/-- The filter in use where none is asked for. -/
def usual : LogFilter := ofRules [⟨some "autosave_core", none, some .info⟩]

/-- The filter that a text asks for; the usual one if there is no text or if it is none. -/
def ofRequest (request : Option String) : LogFilter := (request.bind ofText?).getD usual

end LogFilter

end Keepsake
