/-!
# Failures

`AccessFailure` tells why a single variable could not be read or written, `Failure` why an
operation on configurations, files or save-files did not succeed. A `Panic` is what a variable or
a storage may raise instead of answering; it stops the operation it is raised in.
-/

namespace Keepsake

/-- Why a variable could not be read or written. -/
inductive AccessFailure where
  /-- the variable cannot be read or written now -/
  | unavailable (reason : String)
  /-- the value has the wrong shape for the variable -/
  | typeMismatch (expected actual : String)
  /-- the variable refused the value -/
  | rejected (reason : String)
  /-- the variable has no such field -/
  | unknownField (name : String)
deriving DecidableEq

namespace AccessFailure

/-- The wording of a failure. -/
def message : AccessFailure → String
  | unavailable reason => "variable unavailable: " ++ reason
  | typeMismatch expected actual => "type mismatch: expected " ++ expected ++ ", got " ++ actual
  | rejected reason => "value rejected: " ++ reason
  | unknownField name => "unknown field: " ++ name

end AccessFailure

/-- Why an operation did not succeed. -/
inductive Failure where
  /-- an invalid configuration or registration -/
  | config (reason : String)
  /-- a failure of the operating system, told as it is -/
  | io (reason : String)
  /-- a failure on a file of the storage -/
  | storage (reason : String)
  /-- a snapshot that cannot be written or read in its format -/
  | format (reason : String)
  /-- a variable that could not be read or written -/
  | access (key : String) (source : AccessFailure)
  /-- an entry on file that no accessor is registered for -/
  | unknownKey (key : String)
  /-- a pass that ended abnormally -/
  | worker (reason : String)
deriving DecidableEq

namespace Failure

/-- The wording of a failure. -/
def message : Failure → String
  | config reason => "Configuration error: " ++ reason
  | io reason => "I/O error: " ++ reason
  | storage reason => "Storage error: " ++ reason
  | format reason => "Format error: " ++ reason
  | access key source => "Accessor error for '" ++ key ++ "': " ++ source.message
  | unknownKey key => "Unknown key: " ++ key
  | worker reason => "Worker error: " ++ reason

/-- Whether the process cannot go on after the failure. -/
def isFatal : Failure → Bool
  | config _ => true
  | _ => false

/-- The failure of a variable behind a failure. -/
def source? : Failure → Option AccessFailure
  | access _ source => some source
  | _ => none

end Failure

/-- What stops an operation without an answer: a text, or something that is none. -/
inductive Panic where
  | text (s : String)
  | other
deriving DecidableEq

namespace Panic

/-- The text that is reported for a panic. -/
def message : Panic → String
  | text s => s
  | other => "non-string panic payload"

end Panic

end Keepsake
