import Keepsake.Disk
import Keepsake.Log
import Keepsake.Metrics
import Keepsake.Outcome
import Keepsake.Stamp
/-!
# The world an engine acts on

Whatever an operation can change or see beside its arguments: the variables, the files, the wall
clock, the log, the metrics. `ω` is the state of the variables, about which nothing is assumed.

The world also holds what is to come: a plan gives for each call of a storage, by its number, the
fault that strikes it, if any; and the wall clock goes on from call to call.

An `Act` is an operation on the world. What it did before it failed or panicked stays done.
-/

namespace Keepsake

/-- The operations of a storage that may fail. -/
inductive Call where
  | write | load | copy | delete | list
deriving DecidableEq

/-- What strikes a call of a storage; it then has no effect. -/
inductive Fault where
  | fail (f : Failure)
  | panic (p : Panic)
  /-- a write fails when its temporary file has been made -/
  | failStaged (f : Failure)
  /-- a write panics when its temporary file has been made -/
  | panicStaged (p : Panic)
deriving DecidableEq

/-- What an operation can change or see beside its arguments. -/
structure World (ω : Type) where
  vars : ω
  disk : Disk
  /-- what the wall clock is set to -/
  clock : Stamp
  /-- how far the wall clock has gone on by the number of storage calls -/
  drift : Nat → Stamp → Stamp := fun _ set => set
  /-- the number of storage calls so far -/
  calls : Nat
  /-- the fault that strikes a call, by its number -/
  plan : Nat → Call → Option Fault
  /-- the panic that strikes a call that only asks whether a file is there, by its number -/
  probes : Nat → Option Panic := fun _ => none
  /-- the events so far, the last first -/
  log : List LogEvent
  metrics : Metrics

namespace World

variable {ω : Type}

/-- What the wall clock shows. -/
def now (w : World ω) : Stamp := w.drift w.calls w.clock

/-- The world behind one more call of a storage. -/
def called (w : World ω) : World ω := { w with calls := w.calls + 1 }

end World

/-- An operation on the world. -/
def Act (ω ε α : Type) := World ω → Outcome ε α × World ω

namespace Act

variable {ω ε ε' α β : Type}

/-- Answers without doing anything. -/
def pure (a : α) : Act ω ε α := fun w => (.ok a, w)

/-- Goes on with the answer of an operation. -/
def bind (x : Act ω ε α) (f : α → Act ω ε β) : Act ω ε β := fun w =>
  match x w with
  | (.ok a, w) => f a w
  | (.fail e, w) => (.fail e, w)
  | (.panic p, w) => (.panic p, w)

instance : Monad (Act ω ε) where
  pure := pure
  bind := bind

/-- Fails. -/
def fail (e : ε) : Act ω ε α := fun w => (.fail e, w)

/-- The outcome of an operation as an answer; a panic still stops. -/
def attempt (x : Act ω ε α) : Act ω ε' (Except ε α) := fun w =>
  match x w with
  | (.ok a, w) => (.ok (.ok a), w)
  | (.fail e, w) => (.ok (.error e), w)
  | (.panic p, w) => (.panic p, w)

/-- The outcome of an operation as an answer, panics included. -/
def settle (x : Act ω ε α) : Act ω ε' (Outcome ε α) := fun w =>
  match x w with
  | (o, w) => (.ok o, w)

/-- Answers or fails as told. -/
def ofExcept (x : Except ε α) : Act ω ε α := fun w => (Outcome.ofExcept x, w)

/-- Answers, fails or panics as told. -/
def ofOutcome (o : Outcome ε α) : Act ω ε α := fun w => (o, w)

/-- Cleans up behind an operation that gives no answer. -/
def cleaning (cleanup : Act ω ε' β) (x : Act ω ε α) : Act ω ε α := fun w =>
  match x w with
  | (.ok a, w) => (.ok a, w)
  | (.fail e, w) => (.fail e, (cleanup w).2)
  | (.panic p, w) => (.panic p, (cleanup w).2)

/-- Looks at the world. -/
def get (f : World ω → α) : Act ω ε α := fun w => (.ok (f w), w)

/-- Changes the world. -/
def modify (f : World ω → World ω) : Act ω ε Unit := fun w => (.ok (), f w)

/-- Adds an event to the log. -/
def tell (source : LogSource) (level : LogLevel) (message : String)
    (fields : List (String × LogValue)) : Act ω ε Unit :=
  modify fun w => { w with log := ⟨source, level, message, fields⟩ :: w.log }

/-- Counts something. -/
def count (f : Metrics → Metrics) : Act ω ε Unit := modify fun w => { w with metrics := f w.metrics }

/-- An operation on the variables alone. -/
def onVars (f : ω → Outcome ε α × ω) : Act ω ε α := fun w =>
  match f w.vars with
  | (o, vars) => (o, { w with vars })

/-- An operation on the disk alone. -/
def onDisk (f : Disk → Except ε Disk) : Act ω ε Unit := fun w =>
  match f w.disk with
  | .ok disk => (.ok (), { w with disk })
  | .error e => (.fail e, w)

end Act

end Keepsake
