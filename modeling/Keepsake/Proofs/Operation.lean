import Keepsake.Proofs.Restore
import Keepsake.Worker
/-!
# Runs of an engine

A run is a row of operations on an engine in a world. Registrations and loads may fail, and
storages and variables may do what they like: an operation that ends without an answer leaves the
engine as it was, and the run goes on. Between operations the variables may be given any values,
others may log, and time may pass; only the disk is left to the engine. So what a worker does
between its start and its stop is itself a run, of ticks and a flush.

What passes, loads and registrations keep of an engine and its disk, a run keeps
(`Engine.Invariant`).
-/

namespace Keepsake

variable {ω : Type}

/-- What can be registered. -/
inductive Registration (ω : Type) where
  | file (f : FileSettings)
  | accessor (file : Option String) (key : String) (a : Accessor ω)
  | ofVariable (file : Option String) (name : String) (x : Variable ω) (saveValue : Bool)
    (fields : List String)

namespace Registry

/-- Registers. -/
def add (r : Registry ω) : Registration ω → Except Failure (Registry ω)
  | .file f => r.addFile f
  | .accessor file key a => r.addAccessor file key a
  | .ofVariable file name x saveValue fields => r.addVariable file name x saveValue fields

/-- The registry behind a registration, which may have failed. -/
def register (r : Registry ω) (x : Registration ω) : Registry ω :=
  match r.add x with
  | .ok r => r
  | .error _ => r

/-- The registry behind a row of registrations. -/
def registerAll (r : Registry ω) (l : List (Registration ω)) : Registry ω := l.foldl register r

end Registry

/-- What is done with an engine, or meanwhile. -/
inductive Operation (ω : Type) where
  | register (x : Registration ω)
  | tick (now : Nat)
  | flush (now : Nat)
  | load (file : String)
  | loadAll
  /-- the life of a worker from its start to its stop -/
  | work (first : Nat) (later : List Nat) (stop : Nat)
  /-- variables are set and events logged by others, and time passes -/
  | meanwhile (vars : ω) (clock : Stamp) (log : List LogEvent)

namespace Engine

/-- An engine and its world behind an operation that gives the engine back. -/
def behind {ε : Type} (e : Engine ω) : Outcome ε (Engine ω) × World ω → Engine ω × World ω
  | (.ok e, w) => (e, w)
  | (_, w) => (e, w)

/-- An engine and its world behind an operation. -/
def perform (e : Engine ω) (w : World ω) : Operation ω → Engine ω × World ω
  | .register x => ({ e with registry := e.registry.register x }, w)
  | .tick now => e.behind ((Prod.snd <$> e.tick now : Act ω Failure _) w)
  | .flush now => e.behind ((Prod.snd <$> e.flush now : Act ω Failure _) w)
  | .load file => (e, (e.load file w).2)
  | .loadAll => (e, ((e.loadAll : Act ω Failure _) w).2)
  | .work first later stop => e.behind ((e.work (first :: later) stop : Act ω Failure _) w)
  | .meanwhile vars clock log => (e, { w with vars, clock, log })

/-- An engine and its world behind a row of operations. -/
def performAll (e : Engine ω) (w : World ω) : List (Operation ω) → Engine ω × World ω
  | [] => (e, w)
  | op :: rest => (e.perform w op).1.performAll (e.perform w op).2 rest

/--
An engine and its world, as runs reach them: built over a registry made from settings and
registered with, in any world, and any number of operations later.
-/
inductive Reached : Engine ω → World ω → Prop where
  | start {d₀ d₁ : Disk} {settings : Settings} {r : Registry ω} {s : Storage} {e : Engine ω}
    (registry : Registry.ofSettings d₀ settings = .ok r) (before : List (Registration ω))
    (engine : ofRegistry d₁ (r.registerAll before) s = .ok e) (w : World ω) : Reached e w
  | step {e : Engine ω} {w : World ω} (reached : Reached e w) (op : Operation ω) :
    Reached (e.perform w op).1 (e.perform w op).2

/-! ## Invariants -/

/-- What holds of an engine and its disk, and still does behind whatever is done with the engine. -/
structure Invariant (P : Engine ω → Disk → Prop) : Prop where
  register : ∀ e d x, P e d → P { e with registry := e.registry.register x } d
  passes : ∀ (e : Engine ω) (w : World ω) kind now chosen, P e w.disk → ∃ names e' w',
    (e.passes kind now chosen : Act ω Failure _) w = (.ok (names, e'), w') ∧ P e' w'.disk
  load : ∀ (e : Engine ω) (w : World ω) file, P e w.disk → P e (e.load file w).2.disk
  loadAll : ∀ (e : Engine ω) (w : World ω), P e w.disk →
    P e ((e.loadAll : Act ω Failure _) w).2.disk

namespace Invariant

variable {P : Engine ω → Disk → Prop} {e : Engine ω} {w : World ω}

theorem tick (hP : Invariant P) (h : P e w.disk) (now : Nat) :
    ∃ names e' w', (e.tick now : Act ω Failure _) w = (.ok (names, e'), w') ∧ P e' w'.disk :=
  hP.passes e w .tick now (fun f => f.settings.enabled && f.isDue now) h

theorem flush (hP : Invariant P) (h : P e w.disk) (now : Nat) :
    ∃ names e' w', (e.flush now : Act ω Failure _) w = (.ok (names, e'), w') ∧ P e' w'.disk :=
  hP.passes e w .flush now (fun f => f.settings.enabled || e.registry.settings.flushDisabled) h

theorem tickAll (hP : Invariant P) (h : P e w.disk) (ticks : List Nat) :
    ∃ e' w', (e.tickAll ticks : Act ω Failure _) w = (.ok e', w') ∧ P e' w'.disk := by
  induction ticks generalizing e w with
  | nil => exact ⟨e, w, rfl, h⟩
  | cons now rest ih =>
    obtain ⟨names, e₁, w₁, hrun, h₁⟩ := hP.tick h now
    obtain ⟨e', w', hrest, h'⟩ := ih h₁
    refine ⟨e', w', ?_, h'⟩
    rw [Engine.tickAll, Act.bind_of_ok hrun]
    exact hrest

/-- A worker comes to an end too. -/
theorem work (hP : Invariant P) (h : P e w.disk) (first : Nat) (later : List Nat) (stop : Nat) :
    ∃ e' w', (e.work (first :: later) stop : Act ω Failure _) w = (.ok e', w') ∧
      P e' w'.disk := by
  unfold Engine.work
  split
  · obtain ⟨w₁, htell₁, ha₁⟩ := Act.tell_apply (ε := Failure) .worker .info
      "autosave worker started" [("files", .number e.registry.files.size),
        ("poll_ms", .number e.registry.settings.pollMillis)] w
    rw [Act.bind_of_ok htell₁]
    obtain ⟨_, e₁, w₁', htick, h₁⟩ := hP.tick (ha₁.disk ▸ h) first
    simp only [List.head_cons, List.tail_cons]
    rw [Act.bind_of_ok htick]
    obtain ⟨e₂, w₂, hticks, h₂⟩ := hP.tickAll h₁ later
    rw [Act.bind_of_ok hticks]
    obtain ⟨names, e₃, w₃, hflush, h₃⟩ := hP.flush h₂ stop
    rw [Act.bind_of_ok hflush]
    obtain ⟨w₄, htell₄, ha₄⟩ := Act.tell_apply (ε := Failure) .worker .info
      "autosave worker stopped" [("flushed", .number names.length)] w₃
    refine ⟨e₃, w₄, ?_, ha₄.disk ▸ h₃⟩
    simp only []
    rw [Act.bind_of_ok htell₄]
    rfl
  · obtain ⟨w₁, htell₁, ha₁⟩ := Act.tell_apply (ε := Failure) .worker .info
      "autosave disabled, worker exiting" [] w
    refine ⟨e, w₁, ?_, ha₁.disk ▸ h⟩
    rw [Act.bind_of_ok htell₁]
    rfl

/-- Every operation keeps it, whatever it comes to. -/
theorem perform (hP : Invariant P) (h : P e w.disk) (op : Operation ω) :
    P (e.perform w op).1 (e.perform w op).2.disk := by
  -- a tick and a flush differ only in what they choose
  have passes : ∀ kind now chosen,
      P (e.behind ((Prod.snd <$> e.passes kind now chosen : Act ω Failure _) w)).1
        (e.behind ((Prod.snd <$> e.passes kind now chosen : Act ω Failure _) w)).2.disk := by
    intro kind now chosen
    obtain ⟨names, e', w', hrun, h'⟩ := hP.passes e w kind now chosen h
    have hmap : (Prod.snd <$> e.passes kind now chosen : Act ω Failure _) w = (.ok e', w') :=
      Act.bind_of_ok hrun
    rw [hmap]
    exact h'
  cases op with
  | register x => exact hP.register e w.disk x h
  | tick now => exact passes _ _ _
  | flush now => exact passes _ _ _
  | load file => exact hP.load e w file h
  | loadAll => exact hP.loadAll e w h
  | work first later stop =>
    obtain ⟨e', w', hrun, h'⟩ := hP.work h first later stop
    have hperform : e.perform w (.work first later stop) = (e', w') := congrArg e.behind hrun
    rw [hperform]
    exact h'
  | meanwhile vars clock log => exact h

theorem performAll (hP : Invariant P) (h : P e w.disk) (ops : List (Operation ω)) :
    P (e.performAll w ops).1 (e.performAll w ops).2.disk := by
  induction ops generalizing e w with
  | nil => exact h
  | cons op rest ih => exact ih (hP.perform h op)

end Invariant

end Engine

end Keepsake
