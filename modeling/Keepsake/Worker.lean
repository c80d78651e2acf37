import Keepsake.Engine
/-!
# The worker

A worker owns an engine while it runs: it ticks once at its start and once for each time it has
waited a poll interval, until it is asked to stop; then it flushes and gives the engine back. The
worker of a disabled engine ends at once.
-/

namespace Keepsake

/-- The life of a worker. -/
inductive WorkerState where
  | running
  /-- asked to stop; the last flush may still go on -/
  | stopRequested
  | stopped
deriving DecidableEq

namespace WorkerState

/-- Asks a worker to stop, which only a running one heeds. -/
def stop : WorkerState → WorkerState
  | running => stopRequested
  | s => s

end WorkerState

namespace Engine

variable {ω ε : Type}

/-- Ticks at each of the given instants. -/
def tickAll (e : Engine ω) : List Nat → Act ω ε (Engine ω)
  | [] => pure e
  | now :: rest => do
    let (_, e) ← e.tick now
    e.tickAll rest

/--
The run of a worker that ticks at the given instants and is stopped at the last one. Its first tick
does not wait, so there is one also if it is stopped at once.
-/
def work (e : Engine ω) (ticks : List Nat) (stop : Nat) (started : ticks ≠ [] := by simp) :
    Act ω ε (Engine ω) :=
  if e.isEnabled then do
    Act.tell .worker .info "autosave worker started"
      [("files", .number e.registry.files.size), ("poll_ms", .number e.registry.settings.pollMillis)]
    let (_, e) ← e.tick (ticks.head started)
    let e ← e.tickAll ticks.tail
    let (names, e) ← e.flush stop
    Act.tell .worker .info "autosave worker stopped" [("flushed", .number names.length)]
    pure e
  else do
    Act.tell .worker .info "autosave disabled, worker exiting" []
    pure e

end Engine

end Keepsake
