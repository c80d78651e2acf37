import Keepsake.Codec
/-!
# Arguments of the command line

Options may stand before or behind the name of the command, those of a command only behind it. A
long option takes its value from behind an equals sign or from the next argument; short ones may
be joined, and the rest of the last one is its value. What follows `--` is no option.

An option given twice at the same place is wrong use. Where it is given before and behind the
command, the latter counts.
-/

namespace Keepsake.CommandLine

/-- The options. -/
inductive Flag where
  | verbose | dir | format | keep | force | help | version
deriving DecidableEq

/-- The names of the commands. -/
inductive CommandName where
  | list | view | verify | backups | prune | help
deriving DecidableEq

namespace CommandName

/-- All commands. -/
def all : List CommandName := [list, view, verify, backups, prune, help]

/-- How a command is written. -/
def text : CommandName → String
  | list => "list"
  | view => "show"
  | verify => "verify"
  | backups => "backups"
  | prune => "prune"
  | help => "help"

/-- The command with a written name. -/
def ofText? (s : String) : Option CommandName := all.find? fun c => c.text = s

/-- Whether a command is about one save-file. -/
def takesName : CommandName → Bool
  | list => false
  | help => false
  | _ => true

end CommandName

namespace Flag

/-- All options. -/
def all : List Flag := [verbose, dir, format, keep, force, help, version]

/-- The long form of an option, behind two dashes. -/
def long : Flag → String
  | verbose => "verbose"
  | dir => "dir"
  | format => "format"
  | keep => "keep"
  | force => "force"
  | help => "help"
  | version => "version"

/-- The short form of an option, behind one dash. -/
def short? : Flag → Option Char
  | verbose => some 'v'
  | dir => some 'd'
  | format => some 'f'
  | keep => some 'k'
  | force => none
  | help => some 'h'
  | version => some 'V'

/-- Whether an option has a value. -/
def takesValue : Flag → Bool
  | dir => true
  | format => true
  | keep => true
  | _ => false

/-- Whether an option may stand behind a command, or before any if there is none. -/
def isAllowed (command : Option CommandName) : Flag → Bool
  | keep => command = some .prune
  | force => command = some .prune
  | version => command = none
  | _ => true

/-- The option with a long form. -/
def ofLong? (s : String) : Option Flag := all.find? fun f => f.long = s

/-- The option with a short form. -/
def ofShort? (c : Char) : Option Flag := all.find? fun f => f.short? = some c

end Flag

/-- What ends the reading of arguments early. -/
inductive Stop where
  /-- the arguments are not those of any use -/
  | wrongUse
  /-- help is asked for -/
  | help
  /-- the version is asked for -/
  | version
deriving DecidableEq

/-- What was given at one place, before or behind the command. -/
structure Given where
  verbose : Bool
  dir : Option String
  format : Option Format
  keep : Option Nat
  force : Bool
  name : Option String
deriving DecidableEq

namespace Given

/-- Nothing given. -/
def nothing : Given := ⟨false, none, none, none, false, none⟩

/-- Gives an option without value. -/
def flag (g : Given) : Flag → Except Stop Given
  | .verbose => if g.verbose then .error .wrongUse else .ok { g with verbose := true }
  | .force => if g.force then .error .wrongUse else .ok { g with force := true }
  | .help => .error .help
  | .version => .error .version
  | _ => .error .wrongUse

/-- The format with a name. -/
def format? (s : String) : Option Format := [Format.json, Format.yaml].find? fun f => f.name = s

/-- Gives an option its value. -/
def value (g : Given) (f : Flag) (s : String) : Except Stop Given :=
  match f with
  | .dir => if g.dir.isSome ∨ s.isEmpty then .error .wrongUse else .ok { g with dir := some s }
  | .format => match g.format, format? s with
    | none, some format => .ok { g with format := some format }
    | _, _ => .error .wrongUse
  | .keep => match g.keep, Decimal.readCount wordSpan s.toList with
    | none, some keep => .ok { g with keep := some keep }
    | _, _ => .error .wrongUse
  | _ => .error .wrongUse

end Given

/-- What the arguments so far amount to. -/
structure Reading where
  command : Option CommandName
  /-- given before the command -/
  before : Given
  /-- given behind the command -/
  behind : Given
  /-- the option whose value comes next -/
  waiting : Option Flag
  /-- whether no more options can come -/
  literal : Bool
deriving DecidableEq

namespace Reading

/-- Nothing read. -/
def start : Reading := ⟨none, Given.nothing, Given.nothing, none, false⟩

/-- What was given at the present place. -/
def given (r : Reading) : Given := if r.command.isNone then r.before else r.behind

/-- Changes what was given at the present place. -/
def setGiven (r : Reading) (g : Given) : Reading :=
  if r.command.isNone then { r with before := g } else { r with behind := g }

/-- Takes an option that was found. -/
def option (r : Reading) (f : Option Flag) : Except Stop Flag :=
  match f with
  | some f => if f.isAllowed r.command then .ok f else .error .wrongUse
  | none => .error .wrongUse

/-- Reads a long option without its dashes. -/
def long (r : Reading) (cs : List Char) : Except Stop Reading := do
  let f ← r.option (Flag.ofLong? (String.ofList (cs.takeWhile (· ≠ '='))))
  match cs.dropWhile (· ≠ '=') with
  | _ :: value =>
    if f.takesValue then do
      let g ← r.given.value f (String.ofList value)
      pure (r.setGiven g)
    else throw .wrongUse
  | [] =>
    if f.takesValue then pure { r with waiting := some f }
    else do
      let g ← r.given.flag f
      pure (r.setGiven g)

/-- Reads joined short options without their dash. -/
def shorts (r : Reading) : List Char → Except Stop Reading
  | [] => .ok r
  | c :: rest => do
    let f ← r.option (Flag.ofShort? c)
    if f.takesValue then
      match rest with
      | [] => pure { r with waiting := some f }
      | '=' :: value => do
        let g ← r.given.value f (String.ofList value)
        pure (r.setGiven g)
      | value => do
        let g ← r.given.value f (String.ofList value)
        pure (r.setGiven g)
    else do
      let g ← r.given.flag f
      (r.setGiven g).shorts rest

/-- Reads an argument that is no option. -/
def word (r : Reading) (s : String) : Except Stop Reading :=
  match r.command with
  | none => match CommandName.ofText? s with
    | some c => if r.literal then .error .wrongUse else .ok { r with command := some c }
    | none => .error .wrongUse
  | some c =>
    if c.takesName ∧ r.behind.name.isNone then .ok { r with behind := { r.behind with name := some s } }
    else .error .wrongUse

/-- Reads an argument. Behind the command `help` every argument is the name of a command. -/
def next (r : Reading) (s : String) : Except Stop Reading :=
  if r.command = some .help then
    if (CommandName.ofText? s).isSome then .ok r else .error .wrongUse
  else if r.literal then r.word s
  else match r.waiting, s.toList with
    | some _, '-' :: _ :: _ => .error .wrongUse
    | some f, _ => do
      let g ← r.given.value f s
      pure ({ r with waiting := none }.setGiven g)
    | none, ['-', '-'] => .ok { r with literal := true }
    | none, '-' :: '-' :: cs => r.long cs
    | none, '-' :: c :: cs => r.shorts (c :: cs)
    | none, _ => r.word s

end Reading

/-- A command with what it is about. -/
inductive Command where
  | list
  | view (name : String)
  | verify (name : String)
  | backups (name : String)
  | prune (name : String) (keep : Nat) (force : Bool)
deriving DecidableEq

/-- What is asked of the program. -/
structure Request where
  directory : String
  format : Format
  command : Command
deriving DecidableEq

namespace Request

/-- The command that was read, with all that it needs. -/
def command? (c : CommandName) (g : Given) : Except Stop Command :=
  match c, g.name, g.keep with
  | .list, _, _ => .ok .list
  | .view, some name, _ => .ok (.view name)
  | .verify, some name, _ => .ok (.verify name)
  | .backups, some name, _ => .ok (.backups name)
  | .prune, some name, some keep => .ok (.prune name keep g.force)
  | .help, _, _ => .error .help
  | _, _, _ => .error .wrongUse

/--
Reads the arguments. `usual` is the folder to take where none is given, if there is a usual one.
-/
def ofArguments (usual : Option String) (args : List String) : Except Stop Request := do
  let r ← args.foldlM Reading.next Reading.start
  match r.command, r.waiting with
  | some c, none => do
    let command ← command? c r.behind
    if usual = some "" then throw .wrongUse
    pure {
      directory := ((r.behind.dir.or r.before.dir).or usual).getD "."
      format := (r.behind.format.or r.before.format).getD .yaml
      command }
  | _, _ => throw .wrongUse

end Request

end Keepsake.CommandLine
