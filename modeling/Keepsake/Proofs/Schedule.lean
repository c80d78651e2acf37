import Keepsake.Proofs.Encoding
import Keepsake.Proofs.Reading
import Keepsake.Proofs.Turn
/-!
# The schedule of periodic saves

A run of ticks is told by what each of them found and left (`Engine.ticks`). Each begins in a world
of its own: between two ticks anything may happen to the variables, to the disk and to the faults
that are still to come. What a tick does to a save-file is one of four things (`Ticked.Does`), of
which only a save changes what is remembered. So along the run the last save is what decides when
the save-file is due again and whether it has changed, and a pass that failed decides nothing.
-/

namespace Keepsake

variable {ω ε : Type}

/-- The answer of an operation, if it gave one. -/
def Outcome.answer? {α : Type} : Outcome ε α → Option α
  | .ok a => some a
  | _ => none

theorem Outcome.answer?_of_isStop {α : Type} {o : Outcome ε α} (h : o.IsStop) :
    o.answer? = none := by
  cases o with
  | ok a => exact absurd rfl (h a)
  | fail e => rfl
  | panic p => rfl

/-! ## Runs of ticks -/

/-- A tick of a run: when it was, what it found, and what it left. -/
structure Ticked (ω : Type) where
  /-- nanoseconds on the monotonic clock -/
  now : Nat
  before : Engine ω
  start : World ω
  names : List String
  after : Engine ω
  finish : World ω

/-- Ticks at some times, each in its own world. -/
def Engine.ticks : Engine ω → List (Nat × World ω) → List (Ticked ω)
  | _, [] => []
  | e, (now, w) :: rest =>
    match (e.tick now : Act ω Failure _) w with
    | (.ok (names, e'), w') => ⟨now, e, w, names, e', w'⟩ :: e'.ticks rest
    | _ => []

namespace Ticked

/-- What a save-file remembered when the tick began. -/
def foundSave? (t : Ticked ω) (name : String) : Option Save :=
  (t.before.registry.files.get? name).bind (·.lastSave)

/-- What a save-file remembers behind the tick. -/
def leftSave? (t : Ticked ω) (name : String) : Option Save :=
  (t.after.registry.files.get? name).bind (·.lastSave)

/-- A save-file, if the tick makes a pass over it. -/
def passed? (t : Ticked ω) (name : String) : Option (SaveFile ω) :=
  (t.before.registry.files.get? name).filter fun f =>
    t.before.isEnabled && t.before.chosen .tick t.now f

/-- The world in which the pass over a save-file begins. -/
def passStart (t : Ticked ω) (name : String) : World ω :=
  t.before.passStart .tick t.now (t.before.chosen .tick t.now) name t.start

/-- The result of the pass over a save-file. -/
def result? (t : Ticked ω) (name : String) : Option PassResult :=
  (t.passed? name).bind fun f =>
    (t.before.turn .tick t.now (t.before.chosen .tick t.now) f t.start).answer?.map (·.1)

/-- The snapshot that the pass over a save-file read. -/
def reading? (t : Ticked ω) (name : String) : Option Snapshot :=
  (t.passed? name).bind fun f =>
    ((f.readSnapshot : Act ω Failure Snapshot) (t.passStart f.name)).1.answer?

/-- The pass over a save-file failed. -/
def Failed (t : Ticked ω) (name : String) : Prop := ∃ e, t.result? name = some (.failed e)

/-- Behind the tick the save file holds a snapshot. -/
def Writes (t : Ticked ω) (name : String) (snapshot : Snapshot) : Prop :=
  ∃ data, t.before.format.encode snapshot = .ok data ∧
    t.before.storage.content? t.finish.disk (canonicalName name) = some data

/-- The tick leaves the save file as it was. -/
def Spares (t : Ticked ω) (name : String) : Prop :=
  t.before.storage.content? t.finish.disk (canonicalName name)
    = t.before.storage.content? t.start.disk (canonicalName name)

/-- The tick leaves all that stands under the names of a save-file as it was. -/
def Keeps (t : Ticked ω) (name : String) : Prop :=
  t.before.storage.SameEntries (IsLastingName name) t.start.disk t.finish.disk

/-! ## What a tick does to a save-file -/

/-- What a tick makes of a save-file. -/
inductive Does (t : Ticked ω) (name : String) (f : SaveFile ω) : SaveFile ω → Prop where
  | idle (idle : t.passed? name = none) (unnamed : name ∉ t.names) (keeps : t.Keeps name) :
    Does t name f f
  | saved {snapshot : Snapshot} (due : f.isDue t.now = true)
    (result : t.result? name = some .saved) (reading : t.reading? name = some snapshot)
    (changed : snapshot.changed (f.lastSave.map (·.snapshot)) = true) (named : name ∈ t.names)
    (writes : t.Writes name snapshot) :
    Does t name f { f with lastSave := some ⟨snapshot, t.now⟩ }
  | unchanged {snapshot : Snapshot} {last : Save} (result : t.result? name = some .unchanged)
    (reading : t.reading? name = some snapshot) (remembered : f.lastSave = some last)
    (same : snapshot.same last.snapshot = true) (unnamed : name ∉ t.names)
    (keeps : t.Keeps name) : Does t name f f
  | failed (passed : t.passed? name = some f) (failed : t.Failed name) (unnamed : name ∉ t.names)
    (spares : t.Spares name)
    (changed : ∀ s, t.reading? name = some s → s.changed (f.lastSave.map (·.snapshot)) = true)
    (unread : t.reading? name = none → t.Keeps name) : Does t name f f

variable {t : Ticked ω} {name : String} {f f' : SaveFile ω}

theorem Keeps.spares (h : t.Keeps name) (hn : '/' ∉ name.toList) : t.Spares name :=
  h.content?_eq .canonical (isEntryName_canonicalName hn)

theorem Does.settings (h : t.Does name f f') : f'.settings = f.settings := by
  cases h <;> rfl

/-- Only a save changes what a save-file remembers. -/
theorem Does.eq_of_unnamed (h : t.Does name f f') (hout : name ∉ t.names) : f' = f := by
  cases h with
  | saved _ _ _ _ named => exact absurd named hout
  | _ => rfl

/-- Only a save writes the save file. -/
theorem Does.spares_of_unnamed (h : t.Does name f f') (hn : '/' ∉ name.toList)
    (hout : name ∉ t.names) : t.Spares name := by
  cases h with
  | idle _ _ keeps => exact keeps.spares hn
  | saved _ _ _ _ named => exact absurd named hout
  | unchanged _ _ _ _ _ keeps => exact keeps.spares hn
  | failed _ _ _ spares => exact spares

/-- A save comes when the save-file is due, and writes what it read, which has changed. -/
theorem Does.of_named (h : t.Does name f f') (hin : name ∈ t.names) :
    ∃ snapshot, f.isDue t.now = true ∧ t.reading? name = some snapshot ∧
      snapshot.changed (f.lastSave.map (·.snapshot)) = true ∧ t.Writes name snapshot ∧
      f' = { f with lastSave := some ⟨snapshot, t.now⟩ } := by
  cases h with
  | idle _ unnamed => exact absurd hin unnamed
  | saved due _ reading changed _ writes => exact ⟨_, due, reading, changed, writes, rfl⟩
  | unchanged _ _ _ _ unnamed => exact absurd hin unnamed
  | failed _ _ unnamed => exact absurd hin unnamed

/-- While it reads what was saved last, a tick writes nothing. -/
theorem Does.of_same {last : Save} (h : t.Does name f f') (hlast : f.lastSave = some last)
    (hsame : ∀ s, t.reading? name = some s → s.same last.snapshot = true) :
    f' = f ∧ name ∉ t.names ∧ t.Keeps name := by
  have hunchanged : ∀ s, t.reading? name = some s →
      s.changed (f.lastSave.map (·.snapshot)) = false := fun s hs => by
    rw [hlast]
    exact Snapshot.changed_eq_false_iff.2 (hsame s hs)
  cases h with
  | idle _ unnamed keeps => exact ⟨rfl, unnamed, keeps⟩
  | saved _ _ reading changed => exact absurd changed (by simp [hunchanged _ reading])
  | unchanged _ _ _ _ unnamed keeps => exact ⟨rfl, unnamed, keeps⟩
  | failed _ _ unnamed _ changed unread =>
    refine ⟨rfl, unnamed, unread ?_⟩
    cases hr : t.reading? name with
    | none => rfl
    | some s => exact absurd (changed s hr) (by simp [hunchanged s hr])

/-- A pass that did not fail leaves remembered what it read. -/
theorem Does.current (h : t.Does name f f') (hpassed : (t.passed? name).isSome = true)
    (hfailed : ¬ t.Failed name) :
    ∃ snapshot last, t.reading? name = some snapshot ∧ f'.lastSave = some last ∧
      last.snapshot.same snapshot = true := by
  cases h with
  | idle idle => rw [idle] at hpassed; cases hpassed
  | @saved snapshot _ _ reading =>
    exact ⟨snapshot, _, reading, rfl, Snapshot.same_self snapshot⟩
  | @unchanged snapshot last _ reading remembered same =>
    exact ⟨snapshot, last, reading, remembered, by rwa [Snapshot.same_comm]⟩
  | failed _ failed => exact absurd failed hfailed

/-- A pass that failed leaves the save-file as it was. -/
theorem Does.of_failed (h : t.Does name f f') (hfailed : t.Failed name) :
    f' = f ∧ t.passed? name = some f := by
  obtain ⟨e, he⟩ := hfailed
  cases h with
  | idle idle => simp [result?, idle] at he
  | saved _ result => simp [result] at he
  | unchanged result => simp [result] at he
  | failed passed => exact ⟨rfl, passed⟩

theorem passed?_eq_some (h : t.passed? name = some f) :
    t.before.isEnabled = true ∧ f.settings.enabled = true ∧ f.isDue t.now = true := by
  simpa [passed?, Engine.chosen] using (Option.filter_eq_some_iff.1 h).2

/-- A tick makes a pass over every enabled save-file that is due. -/
theorem passed?_of_due (hf : t.before.registry.files.get? name = some f)
    (hon : t.before.isEnabled = true) (henabled : f.settings.enabled = true)
    (hdue : f.isDue t.now = true) : t.passed? name = some f := by
  simp [passed?, hf, hon, Engine.chosen, henabled, hdue]

/-! ### The pass of a tick -/

theorem reading?_of_passed (h : t.passed? name = some f) : t.reading? name =
    ((f.readSnapshot : Act ω Failure Snapshot) (t.passStart f.name)).1.answer? := by
  rw [reading?, h, Option.bind_some]

/-- What the pass over a save-file read are the answers of its accessors. -/
theorem exists_of_reading? {snapshot : Snapshot} (h : t.reading? name = some snapshot) :
    ∃ f, t.passed? name = some f ∧ f.Reads (t.passStart f.name).vars snapshot := by
  obtain ⟨f, hpassed, hread⟩ := Option.bind_eq_some_iff.1 h
  refine ⟨f, hpassed, ?_⟩
  rcases f.readSnapshot_cases (ε := Failure) (t.passStart f.name) with
    ⟨read, w₁, heq, hreads⟩ | ⟨key, p, w₁, heq, -⟩
  · rw [heq] at hread
    cases hread
    exact hreads
  · rw [heq] at hread
    cases hread

/-- A pass does one of the four things to its save-file. -/
theorem does_of_passRun {result : PassResult} {d : Disk} (hn : '/' ∉ f.name.toList)
    (hpassed : t.passed? f.name = some f) (hresult : t.result? f.name = some result)
    (hnamed : f.name ∈ t.names ↔ result = .saved)
    (hbefore : t.before.storage.SameEntries (IsLastingName f.name) t.start.disk
      (t.passStart f.name).disk)
    (hrun : f.PassRun t.before.storage t.before.format t.now true (t.passStart f.name) result f' d)
    (hafter : t.before.storage.SameEntries (IsLastingName f.name) d t.finish.disk) :
    t.Does f.name f f' := by
  have hname := isEntryName_canonicalName hn
  have hreading := reading?_of_passed hpassed
  have hspares : result ≠ .saved → t.Spares f.name := fun hr =>
    (hafter.content?_eq .canonical hname).trans
      (((hrun.effect hn).of_not_saved hn hr).2.trans (hbefore.content?_eq .canonical hname))
  cases hrun with
  | unread failure stop =>
    rw [Outcome.answer?_of_isStop stop] at hreading
    exact .failed hpassed ⟨failure, hresult⟩ (by simp [hnamed]) (hspares nofun)
      (by simp [hreading]) fun _ => hbefore.trans hafter
  | unchanged read only same =>
    rw [read] at hreading
    cases hlast : f.lastSave with
    | none =>
      rw [hlast] at same
      cases same
    | some last =>
      rw [hlast] at same
      exact .unchanged hresult hreading hlast (Snapshot.changed_eq_false_iff.1 same)
        (by simp [hnamed]) (hbefore.trans hafter)
  | unencoded failure read changed =>
    rw [read] at hreading
    exact .failed hpassed ⟨failure, hresult⟩ (by simp [hnamed]) (hspares nofun)
      (fun s hs => Option.some.inj (hreading.symm.trans hs) ▸ changed rfl)
      fun _ => hbefore.trans hafter
  | unwritten failure read _ changed =>
    -- a backup may have been taken, so only the save file itself is as it was
    rw [read] at hreading
    exact .failed hpassed ⟨failure, hresult⟩ (by simp [hnamed]) (hspares nofun)
      (fun s hs => Option.some.inj (hreading.symm.trans hs) ▸ changed rfl)
      fun hnone => absurd (hreading.symm.trans hnone) nofun
  | @saved snapshot _ data _ read _ changed encoded _ puts =>
    rw [read] at hreading
    exact .saved (passed?_eq_some hpassed).2.2 hresult hreading (changed rfl) (by simp [hnamed])
      ⟨data, encoded, (hafter.content?_eq .canonical hname).trans puts.written⟩

end Ticked

namespace Engine

variable {e : Engine ω} {name : String} {f f' : SaveFile ω}

/-- A row of passes at a tick does one of the four things to a save-file. -/
theorem Turn.does {now : Nat} {w w' : World ω} {names : List String} (hn : '/' ∉ f.name.toList)
    (hf : e.registry.files.get? f.name = some f) (hon : e.isEnabled = true)
    (h : e.Turn (.entries e.storage (IsLastingName f.name)) .tick now (e.chosen .tick now) f w names
      f' w') (e' : Engine ω) :
    (⟨now, e, w, names, e', w'⟩ : Ticked ω).Does f.name f f' := by
  cases h with
  | out out same unnamed kept =>
    subst same
    exact .idle (by simp [Ticked.passed?, hf, out]) unnamed kept.1
  | @passed result w₁ taken pass before after named =>
    have hpassed : (⟨now, e, w, names, e', w'⟩ : Ticked ω).passed? f.name = some f := by
      simp [Ticked.passed?, hf, hon, taken]
    have hturn : e.turn .tick now (e.chosen .tick now) f w = .ok (result, f') :=
      congrArg Prod.fst pass
    refine Ticked.does_of_passRun hn hpassed ?_ named before.1 (SaveFile.passRun_of_eq hn pass)
      after.1
    rw [Ticked.result?, hpassed, Option.bind_some, hturn]
    rfl

/-- A tick does one of the four things to every save-file. -/
theorem tick_does (h : e.WellNamed) (hf : e.registry.files.get? name = some f)
    (now : Nat) (w : World ω) :
    ∃ names e' w' f', (e.tick now : Act ω Failure _) w = (.ok (names, e'), w') ∧ e'.WellNamed ∧
      e'.isEnabled = e.isEnabled ∧ e'.registry.files.get? name = some f' ∧
      (⟨now, e, w, names, e', w'⟩ : Ticked ω).Does name f f' := by
  obtain ⟨rfl, -⟩ := h name f hf
  cases hon : e.isEnabled with
  | false =>
    refine ⟨[], e, w, f, round_of_disabled hon .tick now w, h, hon, hf, ?_⟩
    exact .idle (by simp [Ticked.passed?, hf, hon]) List.not_mem_nil (.refl ..)
  | true =>
    obtain ⟨names, files, w', hrun, hround⟩ := round_of_enabled h hon .tick now w
    obtain ⟨f', hget, hturn⟩ :=
      runPasses_turn h .tick now _ hf (h.within_others f.name now (PassKind.tick = .tick)) hrun
    exact ⟨names, _, w', f', hround, h.withFiles hrun, hon, hget,
      hturn.does (h.no_slash hf) hf hon _⟩

end Engine

/-! ## What a run of ticks does to a save-file -/

namespace Ticked

/-- The tick finds the save-file as one and leaves it as the other. -/
structure Takes (t : Ticked ω) (name : String) (f f' : SaveFile ω) : Prop where
  found : t.before.registry.files.get? name = some f
  left : t.after.registry.files.get? name = some f'
  does : t.Does name f f'

/-- A run of ticks at times that do not go back, as one save-file goes through it. -/
inductive Run (on : Bool) (name : String) : SaveFile ω → List (Ticked ω) → Prop where
  | done {f : SaveFile ω} : Run on name f []
  | tick {t : Ticked ω} {f f' : SaveFile ω} {rest : List (Ticked ω)}
    (enabled : t.before.isEnabled = on) (takes : t.Takes name f f')
    (later : ∀ u ∈ rest, t.now ≤ u.now) (run : Run on name f' rest) : Run on name f (t :: rest)

/-- A later tick of a run, with no save of the save-file at the ticks between. -/
def NoSaveBetween (name : String) (history : List (Ticked ω)) (t u : Ticked ω) : Prop :=
  ∃ earlier between later, history = earlier ++ t :: (between ++ u :: later) ∧
    ∀ v ∈ between, name ∉ v.names

variable {t u : Ticked ω} {history earlier later : List (Ticked ω)} {on : Bool} {name : String}
variable {f f' : SaveFile ω}

theorem Takes.foundSave? (h : t.Takes name f f') : t.foundSave? name = f.lastSave := by
  rw [Ticked.foundSave?, h.found, Option.bind_some]

theorem Takes.leftSave? (h : t.Takes name f f') : t.leftSave? name = f'.lastSave := by
  rw [Ticked.leftSave?, h.left, Option.bind_some]

/-- Behind some ticks a run goes on, with the same save-file if none of them saved it. -/
theorem Run.behind (h : Run on name f (earlier ++ later)) : ∃ g, Run on name g later ∧
    g.settings = f.settings ∧ ((∀ t ∈ earlier, name ∉ t.names) → g = f) := by
  induction earlier generalizing f with
  | nil => exact ⟨f, h, rfl, fun _ => rfl⟩
  | cons t earlier ih =>
    cases h with
    | tick _ takes _ run =>
      obtain ⟨g, hg, hsettings, hsame⟩ := ih run
      refine ⟨g, hg, hsettings.trans takes.does.settings, fun hout => ?_⟩
      rw [List.forall_mem_cons] at hout
      exact (hsame hout.2).trans (takes.does.eq_of_unnamed hout.1)

/-- Every tick of a run takes the save-file on. -/
theorem Run.takes (h : Run on name f history) (ht : t ∈ history) :
    t.before.isEnabled = on ∧ ∃ g g', g.settings = f.settings ∧ t.Takes name g g' := by
  obtain ⟨earlier, later, rfl⟩ := List.append_of_mem ht
  obtain ⟨g, hg, hsettings, -⟩ := h.behind
  cases hg with
  | @tick _ _ g' _ enabled takes => exact ⟨enabled, g, g', hsettings, takes⟩

/-- With no save between two ticks the later one finds what the first one left. -/
theorem Run.takes_of_noSaveBetween (h : Run on name f history)
    (hb : NoSaveBetween name history t u) : t.now ≤ u.now ∧
      t.before.isEnabled = u.before.isEnabled ∧
      ∃ g g' g'', g.settings = f.settings ∧ t.Takes name g g' ∧ u.Takes name g' g'' := by
  obtain ⟨earlier, between, later, rfl, hout⟩ := hb
  obtain ⟨g, hg, hsettings, -⟩ := h.behind
  cases hg with
  | @tick _ _ g' _ enabled takes hlater run =>
    obtain ⟨g₁, hg₁, -, hsame⟩ := run.behind
    obtain rfl := hsame hout
    cases hg₁ with
    | @tick _ _ g'' _ enabled' takes' =>
      exact ⟨hlater u (by simp), enabled.trans enabled'.symm, g, g₁, g'', hsettings, takes, takes'⟩

/-- While it is read as it was saved last, a save-file is not written. -/
theorem Run.steady (h : Run on name f history) {last : Save} (hlast : f.lastSave = some last)
    (hsame : ∀ t ∈ history, ∀ s, t.reading? name = some s → s.same last.snapshot = true) :
    ∀ t ∈ history, name ∉ t.names ∧ t.Keeps name := by
  induction h with
  | done => exact fun t ht => absurd ht List.not_mem_nil
  | tick _ takes _ _ ih =>
    rw [List.forall_mem_cons] at hsame ⊢
    obtain ⟨rfl, hout, hkeeps⟩ := takes.does.of_same hlast hsame.1
    exact ⟨⟨hout, hkeeps⟩, ih hlast hsame.2⟩

end Ticked

/-- A run of ticks of an engine is one that every save-file goes through. -/
theorem Engine.run_ticks {e : Engine ω} (h : e.WellNamed) {name : String} {f : SaveFile ω}
    (hf : e.registry.files.get? name = some f) {moments : List (Nat × World ω)}
    (hmoments : moments.Pairwise fun a b => a.1 ≤ b.1) :
    (e.ticks moments).map (fun t => (t.now, t.start)) = moments ∧
      Ticked.Run e.isEnabled name f (e.ticks moments) := by
  induction moments generalizing e f with
  | nil => exact ⟨rfl, .done⟩
  | cons m rest ih =>
    obtain ⟨now, w⟩ := m
    obtain ⟨names, e', w', f', hrun, hnamed, hon, hf', hdoes⟩ := tick_does h hf now w
    rw [List.pairwise_cons] at hmoments
    obtain ⟨hmap, hrest⟩ := ih hnamed hf' hmoments.2
    rw [ticks, hrun]
    refine ⟨congrArg _ hmap, .tick rfl ⟨hf, hf', hdoes⟩ (fun u hu => ?_) (hon ▸ hrest)⟩
    have hmem : (u.now, u.start) ∈ rest := hmap ▸ List.mem_map_of_mem hu
    exact hmoments.1 _ hmem

/-! ## The schedule -/

/-- What a run of ticks does to an enabled save-file, which remembers a save or none at first. -/
structure OnSchedule (name : String) (period : Nat) (first : Option Save)
    (history : List (Ticked ω)) : Prop where
  /-- what is read at a tick are the values that its accessors answer -/
  readings : ∀ t ∈ history, ∀ snapshot, t.reading? name = some snapshot → ∃ f,
    t.passed? name = some f ∧ f.Reads (t.passStart f.name).vars snapshot
  /-- until it is saved, it remembers what it did at first -/
  unsaved : ∀ earlier u later, history = earlier ++ u :: later → (∀ v ∈ earlier, name ∉ v.names) →
    u.foundSave? name = first
  /-- and then the last save -/
  remembers : ∀ t u, Ticked.NoSaveBetween name history t u → name ∈ t.names →
    u.foundSave? name = t.leftSave? name
  /-- what a save writes and remembers is what it read -/
  saves : ∀ t ∈ history, name ∈ t.names → ∃ snapshot, t.reading? name = some snapshot ∧
    t.Writes name snapshot ∧ t.leftSave? name = some ⟨snapshot, t.now⟩
  /-- a tick that does not save it writes nothing to its save file -/
  spares : ∀ t ∈ history, name ∉ t.names → t.Spares name ∧ t.leftSave? name = t.foundSave? name
  /-- from one save to the next at least the period passes -/
  spaced : ∀ t u, Ticked.NoSaveBetween name history t u → name ∈ t.names → name ∈ u.names →
    t.now + period ≤ u.now
  /-- and what the next one writes is not the same -/
  differs : ∀ t u, Ticked.NoSaveBetween name history t u → name ∈ t.names → name ∈ u.names →
    ∀ before after, t.reading? name = some before → u.reading? name = some after →
      after.same before = false
  /-- while it is read as it was saved, nothing more is written, and no backup is taken -/
  steady : ∀ earlier t later, history = earlier ++ t :: later → name ∈ t.names →
    ∀ snapshot, t.reading? name = some snapshot →
      (∀ u ∈ later, ∀ s, u.reading? name = some s → s.same snapshot = true) →
        ∀ u ∈ later, name ∉ u.names ∧ u.Keeps name
  /-- when the period has passed, a pass that does not fail brings what is remembered up to date -/
  current : ∀ t ∈ history, t.before.isEnabled = true →
    (∀ last, t.foundSave? name = some last → last.time + period ≤ t.now) → ¬ t.Failed name →
      ∃ snapshot last, t.reading? name = some snapshot ∧ t.leftSave? name = some last ∧
        last.snapshot.same snapshot = true
  /-- behind a pass that failed every tick makes another one, until one saves -/
  retried : ∀ t u, Ticked.NoSaveBetween name history t u → t.Failed name →
    (u.passed? name).isSome = true

/-- A save-file is due exactly if it was never saved, or its period has passed since. -/
theorem SaveFile.isDue_iff {f : SaveFile ω} {now : Nat} : f.isDue now = true ↔
    ∀ last, f.lastSave = some last → f.settings.period ≤ now - last.time := by
  unfold isDue
  cases f.lastSave <;> simp

/-- It stays due as time goes on. -/
theorem SaveFile.isDue_mono {f : SaveFile ω} {now now' : Nat} (h : f.isDue now = true)
    (hle : now ≤ now') : f.isDue now' = true := by
  rw [isDue_iff] at h ⊢
  intro last hlast
  have := h last hlast
  omega

theorem Ticked.Run.onSchedule {history : List (Ticked ω)} {on : Bool} {name : String}
    {f : SaveFile ω} (h : Ticked.Run on name f history) (hn : '/' ∉ name.toList)
    (henabled : f.settings.enabled = true) :
    OnSchedule name f.settings.period f.lastSave history where
  readings _ _ _ hread := Ticked.exists_of_reading? hread
  unsaved := by
    rintro earlier u later rfl hout
    obtain ⟨g, hg, -, hsame⟩ := h.behind
    obtain rfl := hsame hout
    cases hg with
    | tick _ takes => exact takes.foundSave?
  remembers t u hb _ := by
    obtain ⟨-, -, g, g', g'', -, ht, hu⟩ := h.takes_of_noSaveBetween hb
    rw [hu.foundSave?, ht.leftSave?]
  saves t ht hin := by
    obtain ⟨-, g, g', -, htakes⟩ := h.takes ht
    obtain ⟨snapshot, -, hread, -, hwrites, rfl⟩ := htakes.does.of_named hin
    exact ⟨snapshot, hread, hwrites, htakes.leftSave?⟩
  spares t ht hout := by
    obtain ⟨-, g, g', -, htakes⟩ := h.takes ht
    obtain rfl := htakes.does.eq_of_unnamed hout
    exact ⟨htakes.does.spares_of_unnamed hn hout, htakes.leftSave?.trans htakes.foundSave?.symm⟩
  spaced t u hb hin hin' := by
    obtain ⟨hle, -, g, g', g'', hsettings, ht, hu⟩ := h.takes_of_noSaveBetween hb
    obtain ⟨snapshot, -, -, -, -, rfl⟩ := ht.does.of_named hin
    obtain ⟨-, hdue, -⟩ := hu.does.of_named hin'
    have hpassed : f.settings.period ≤ u.now - t.now :=
      hsettings ▸ SaveFile.isDue_iff.1 hdue _ rfl
    omega
  differs t u hb hin hin' before after hbefore hafter := by
    obtain ⟨-, -, g, g', g'', -, ht, hu⟩ := h.takes_of_noSaveBetween hb
    obtain ⟨s, -, hs, -, -, rfl⟩ := ht.does.of_named hin
    obtain ⟨s', -, hs', hchanged, -⟩ := hu.does.of_named hin'
    obtain rfl : before = s := Option.some.inj (hbefore.symm.trans hs)
    obtain rfl : after = s' := Option.some.inj (hafter.symm.trans hs')
    rw [Bool.eq_false_iff]
    intro hsame
    exact absurd hchanged (by simp [Snapshot.changed_eq_false_iff.2 hsame])
  steady := by
    rintro earlier t later rfl hin snapshot hread hsame
    obtain ⟨g, hg, -⟩ := h.behind
    cases hg with
    | tick _ takes _ run =>
      obtain ⟨s, -, hs, -, -, rfl⟩ := takes.does.of_named hin
      obtain rfl : snapshot = s := Option.some.inj (hread.symm.trans hs)
      exact run.steady rfl hsame
  current t ht hon hpast hfailed := by
    obtain ⟨-, g, g', hsettings, htakes⟩ := h.takes ht
    have hdue : g.isDue t.now = true := SaveFile.isDue_iff.2 fun last hlast => by
      have := hpast last (htakes.foundSave?.trans hlast)
      rw [hsettings]
      omega
    have hpassed := Ticked.passed?_of_due htakes.found hon (hsettings ▸ henabled) hdue
    obtain ⟨snapshot, last, hread, hlast, hsame⟩ :=
      htakes.does.current (by rw [hpassed]; rfl) hfailed
    exact ⟨snapshot, last, hread, htakes.leftSave?.trans hlast, hsame⟩
  retried t u hb hfailed := by
    obtain ⟨hle, hon, g, g', g'', -, ht, hu⟩ := h.takes_of_noSaveBetween hb
    obtain ⟨rfl, hpassed⟩ := ht.does.of_failed hfailed
    obtain ⟨hon', henabled', hdue⟩ := Ticked.passed?_eq_some hpassed
    rw [Ticked.passed?_of_due hu.found (hon ▸ hon') henabled' (SaveFile.isDue_mono hdue hle)]
    rfl

namespace Engine

/--
Every run of ticks keeps an enabled save-file on its schedule, whatever its accessors read, however
its saves fail, and whatever becomes of the disk between the ticks.
-/
theorem ticks_onSchedule {e : Engine ω} (h : e.WellNamed) {name : String} {f : SaveFile ω}
    (hf : e.registry.files.get? name = some f) (henabled : f.settings.enabled = true)
    {moments : List (Nat × World ω)} (hmoments : moments.Pairwise fun a b => a.1 ≤ b.1) :
    (e.ticks moments).map (fun t => (t.now, t.start)) = moments ∧
      OnSchedule name f.settings.period f.lastSave (e.ticks moments) := by
  have hname : f.name = name := (h name f hf).1
  obtain ⟨hmap, hrun⟩ := run_ticks h hf hmoments
  exact ⟨hmap, hrun.onSchedule (hname ▸ h.no_slash hf) henabled⟩

end Engine

namespace Sample

/-- An engine over one cell. -/
def cellEngine : Engine Cell := engine [.accessor none "greeting" Cell.accessor]

/-- A cell at four times; at the third a folder is in the place of its save file. -/
def moments : List (Nat × World Cell) :=
  [(5, world (Cell.ofValue (.text "hello")) Disk.bare),
    (60 * nanosPerSecond, world (Cell.ofValue (.text "hello")) Disk.bare),
    (90 * nanosPerSecond, world (Cell.ofValue (.text "bye"))
      (Disk.bare.setFolder [canonicalName "auto"] NameMap.empty)),
    (91 * nanosPerSecond, world (Cell.ofValue (.text "bye")) Disk.bare)]

end Sample

/--
A cell is saved at the first tick, passed over at the second, and saved again at the fourth, since
the third failed to.
-/
theorem Engine.ticks_onSchedule_sample :
    (Sample.cellEngine.ticks Sample.moments).map (fun t => ((t.passed? "auto").isSome, t.names))
        = [(true, ["auto"]), (true, []), (true, []), (true, ["auto"])] ∧
      (Sample.cellEngine.ticks Sample.moments).map (fun t => (t.now, t.start)) = Sample.moments ∧
      OnSchedule "auto" (FileSettings.named "auto").period none
        (Sample.cellEngine.ticks Sample.moments) := by
  have hnamed : Sample.cellEngine.WellNamed :=
    (Sample.reached _ (Sample.world (Cell.ofValue (.text "hello")) Disk.bare)).sound.wellNamed
  have hf : Sample.cellEngine.registry.files.get? "auto"
      = some ⟨.named "auto", NameMap.empty.insert "greeting" Cell.accessor, none⟩ := rfl
  exact ⟨by decide +kernel, ticks_onSchedule hnamed hf rfl (by decide +kernel)⟩

end Keepsake
