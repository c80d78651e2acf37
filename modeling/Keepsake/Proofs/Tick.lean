import Keepsake.Proofs.Encoding
import Keepsake.Proofs.Reading
import Keepsake.Proofs.Turn
/-!
# What a tick leaves behind

A tick may skip a save-file whose values are as they were at its last save. Nothing is lost by
that: the save file holds what the last save wrote, and the snapshot that was read now would be
written as the same bytes. So behind a tick a save-file whose pass did not fail holds the snapshot
of that pass either way, and the names that the tick gives are those of the save-files that were
written.

The pass over a save-file starts in the world that the passes before it left (`Engine.passStart`).
What is said of the pass is said of that world; the passes behind it no longer touch its save
file.
-/

namespace Keepsake

variable {ω ε : Type}

/-! ## Save files -/

namespace Engine

/-- How a row of passes leaves a save-file. -/
inductive Left (e : Engine ω) (kind : PassKind) (now : Nat) (chosen : SaveFile ω → Bool)
    (w : World ω) (names : List String) (f f' : SaveFile ω) (d : Disk) : Prop where
  /-- not chosen, it is as it was -/
  | out (out : chosen f = false) (same : f' = f) (unnamed : f.name ∉ names)
    (content : e.storage.content? d (canonicalName f.name)
      = e.storage.content? w.disk (canonicalName f.name))
  /-- it is as its own pass left it, which found it as it was -/
  | passed {result : PassResult} {d₁ : Disk} (taken : chosen f = true)
    (turn : e.turn kind now chosen f w = .ok (result, f'))
    (before : e.storage.content? (e.passStart kind now chosen f.name w).disk (canonicalName f.name)
      = e.storage.content? w.disk (canonicalName f.name))
    (effect : f.PassEffect e.storage e.format now (kind = .tick)
      (e.passStart kind now chosen f.name w)
      result f' d₁)
    (named : f.name ∈ names ↔ result = .saved)
    (after : e.storage.content? d (canonicalName f.name)
      = e.storage.content? d₁ (canonicalName f.name))

/-- Every save-file has its turn, and is left by the row as its turn left it. -/
theorem runPasses_left {e : Engine ω} {w : World ω} (h : e.Sound w.disk) (kind : PassKind)
    (now : Nat) (chosen : SaveFile ω → Bool) {name : String} {f : SaveFile ω}
    (hf : e.registry.files.get? name = some f) {names : List String} {files : NameMap (SaveFile ω)}
    {w' : World ω}
    (hrun : (runPasses e.storage e.format kind now chosen e.registry.files.entries
      e.registry.files : Act ω Failure _) w = (.ok (names, files), w')) :
    ∃ f', files.get? name = some f' ∧ e.Left kind now chosen w names f f' w'.disk := by
  obtain rfl : f.name = name := (h name f hf).named
  have hslash : '/' ∉ f.name.toList := (h _ f hf).no_slash
  have hname := isEntryName_canonicalName hslash
  obtain ⟨f', hget, hturn⟩ := runPasses_turn h.wellNamed kind now chosen hf
    (h.wellNamed.within_others f.name now (kind = .tick)) hrun
  refine ⟨f', hget, ?_⟩
  cases hturn with
  | out out same unnamed kept => exact .out out same unnamed (kept.1.content?_eq .canonical hname)
  | @passed result w₁ taken pass before after named =>
    exact .passed taken (congrArg Prod.fst pass) (before.1.content?_eq .canonical hname)
      ((SaveFile.passRun_of_eq hslash pass).effect hslash) named
      (after.1.content?_eq .canonical hname)

end Engine

/-! ## Ticks -/

/-- A save file holds a snapshot, and its save-file remembers the same. -/
structure SaveFile.Holds (f : SaveFile ω) (s : Storage) (format : Format) (d : Disk)
    (snapshot : Snapshot) : Prop where
  written : ∃ data, format.encode snapshot = .ok data ∧
    s.content? d (canonicalName f.name) = some data
  remembered : ∃ last, f.lastSave = some last ∧ last.snapshot.same snapshot = true

/-- A pass that did not fail leaves behind what it read, whether it wrote it or skipped it. -/
theorem SaveFile.PassEffect.holds {f f' : SaveFile ω} {s : Storage} {format : Format} {now : Nat}
    {w : World ω} {result : PassResult} {d : Disk}
    (h : f.PassEffect s format now true w result f' d) {name : String}
    (hf : f.Sound name s format w.disk) (hr : ∀ e, result ≠ .failed e) :
    ∃ snapshot w₁, (f.readSnapshot : Act ω Failure Snapshot) w = (.ok snapshot, w₁) ∧
      f'.Holds s format d snapshot ∧ (result = .saved → f'.lastSave = some ⟨snapshot, now⟩) ∧
      (result = .unchanged → f' = f) := by
  cases h with
  | @saved snapshot w₁ data d₁ d₂ read changed encoded backup puts =>
    exact ⟨snapshot, w₁, read,
      ⟨⟨data, encoded, puts.written⟩, _, rfl, Snapshot.same_self snapshot⟩, fun _ => rfl, nofun⟩
  | @unchanged snapshot w₁ read only same =>
    cases hlast : f.lastSave with
    | none =>
      rw [hlast] at same
      cases same
    | some last =>
      rw [hlast] at same
      have hsame : snapshot.same last.snapshot = true := Snapshot.changed_eq_false_iff.1 same
      obtain ⟨data, hdata, hcontent⟩ := hf.describes last hlast
      refine ⟨snapshot, w₁, read, ⟨⟨data, ?_, ?_⟩, last, hlast, ?_⟩, nofun, fun _ => rfl⟩
      · rw [Snapshot.encode_eq_of_same hsame]
        exact hdata
      · rw [hf.named]
        exact hcontent
      · rw [Snapshot.same_comm]
        exact hsame
  | failed e backup => exact absurd rfl (hr e)

/-- Whether a tick makes a pass over a save-file. -/
def SaveFile.takesTurn (now : Nat) (f : SaveFile ω) : Bool := f.settings.enabled && f.isDue now

theorem Engine.tick_eq (e : Engine ω) (now : Nat) :
    (e.tick now : Act ω ε _) = e.passes .tick now (SaveFile.takesTurn now) := rfl

namespace Engine

/-- How a tick leaves a save-file. -/
inductive TickLeft (e : Engine ω) (w : World ω) (now : Nat) (names : List String)
    (f f' : SaveFile ω) (d : Disk) : Prop where
  /--
  it was due and its pass did not fail: it holds what its accessors answered, newly written or as it
  was
  -/
  | held {result : PassResult} {snapshot : Snapshot} {w₁ : World ω} (due : f.takesTurn now = true)
    (turn : e.turn .tick now (SaveFile.takesTurn now) f w = .ok (result, f'))
    (read : (f.readSnapshot : Act ω Failure Snapshot)
      (e.passStart .tick now (SaveFile.takesTurn now) f.name w) = (.ok snapshot, w₁))
    (reads : f.Reads (e.passStart .tick now (SaveFile.takesTurn now) f.name w).vars snapshot)
    (holds : f'.Holds e.storage e.format d snapshot)
    (outcome : (result = .saved ∧ f.name ∈ names ∧ f'.lastSave = some ⟨snapshot, now⟩) ∨
      (result = .unchanged ∧ f.name ∉ names ∧ f' = f))
  /-- it was not due, or its pass failed: it is as it was -/
  | kept (reason : f.takesTurn now = false ∨
      ∃ failure, e.turn .tick now (SaveFile.takesTurn now) f w = .ok (.failed failure, f'))
    (same : f' = f) (unnamed : f.name ∉ names)
    (content : e.storage.content? d (canonicalName f.name)
      = e.storage.content? w.disk (canonicalName f.name))

/-- A save-file that its turn left is as a tick leaves it. -/
theorem Left.tickLeft {e : Engine ω} {w : World ω} {now : Nat} {names : List String}
    {f f' : SaveFile ω} {d : Disk} (h : e.Left .tick now (SaveFile.takesTurn now) w names f f' d)
    (hf : f.Sound f.name e.storage e.format w.disk) : e.TickLeft w now names f f' d := by
  cases h with
  | out out same unnamed content => exact .kept (Or.inl out) same unnamed content
  | @passed result d₁ taken turn before effect named after =>
    have hf₁ := hf.of_content_eq before
    have hname : f'.name = f.name := congrArg FileSettings.name effect.settings.1
    by_cases hr : ∃ failure, result = .failed failure
    · obtain ⟨failure, rfl⟩ := hr
      obtain ⟨hsame, hcontent⟩ := effect.of_not_saved hf.no_slash nofun
      refine .kept (Or.inr ⟨failure, turn⟩) hsame (fun hmem => ?_)
        (after.trans (hcontent.trans before))
      cases named.1 hmem
    · obtain ⟨snapshot, w₁, hread, hholds, hsaved, hunchanged⟩ :=
        effect.holds hf₁ fun failure e => hr ⟨failure, e⟩
      refine .held taken turn hread (SaveFile.reads_of_readSnapshot hread)
        ⟨?_, hholds.remembered⟩ ?_
      · rw [hname, after, ← hname]
        exact hholds.written
      · cases result with
        | saved => exact Or.inl ⟨rfl, named.2 rfl, hsaved rfl⟩
        | unchanged => exact Or.inr ⟨rfl, fun hmem => (nomatch named.1 hmem), hunchanged rfl⟩
        | failed failure => exact absurd ⟨failure, rfl⟩ hr

/--
Skipping a save is sound. Behind a tick of an enabled engine, wherever its run has led, every
save-file that was due and whose pass did not fail holds the snapshot of that very pass, and every
other is as it was. The names given are those of the save-files written, in their order; and
snapshots between which the comparison finds no change are written alike in both formats.
-/
theorem tick_holds_of_reached {e : Engine ω} {w : World ω} (h : e.Reached w)
    (hon : e.isEnabled = true) (now : Nat) :
    (∃ names e' w', (e.tick now : Act ω Failure _) w = (.ok (names, e'), w') ∧
        names.Pairwise (· < ·) ∧ (∀ name ∈ names, e.registry.files.contains name = true) ∧
        ∀ name f, e.registry.files.get? name = some f → f.name = name ∧
          ∃ f', e'.registry.files.get? name = some f' ∧ e.TickLeft w now names f f' w'.disk) ∧
      ∀ a b : Snapshot, a.changed (some b) = false → ∀ format : Format,
        format.encode a = format.encode b := by
  refine ⟨?_, fun a b h format =>
    Snapshot.encode_eq_of_same (Snapshot.changed_eq_false_iff.1 h) format⟩
  obtain ⟨names, files, w', hrun, hsweep⟩ := runPasses_sweep (ε := Failure) e.storage e.format .tick
    now (SaveFile.takesTurn now) e.registry.files.entries e.registry.files w h.sound.no_slash
  have hsub : names.Sublist e.registry.files.keys := hsweep.names_sublist fun x hx =>
    (h.sound x.1 x.2 (NameMap.get?_of_mem hx)).named
  refine ⟨names, { e with registry := { e.registry with files } }, w', ?_, ?_, fun name hname => ?_,
    fun name f hf => ?_⟩
  · rw [tick, passes, if_pos hon]
    exact Act.bind_of_ok hrun
  · exact e.registry.files.keys_ascending.sublist hsub
  · exact (NameMap.mem_keys_iff _ name).1 (hsub.subset hname)
  · have hf' := h.sound name f hf
    obtain ⟨f', hget, hleft⟩ := runPasses_left h.sound .tick now (SaveFile.takesTurn now) hf hrun
    exact ⟨hf'.named, f', hget, hleft.tickLeft (hf'.named.symm ▸ hf')⟩

/-- A second tick, when the only save-file is due again and its cell has not changed. -/
theorem tick_holds_sample :
    Sample.ticked.1.isEnabled = true ∧
      ((∃ names e' w',
          (Sample.ticked.1.tick (60 * nanosPerSecond) : Act Cell Failure _) Sample.ticked.2
            = (.ok (names, e'), w') ∧
          names.Pairwise (· < ·) ∧
          (∀ name ∈ names, Sample.ticked.1.registry.files.contains name = true) ∧
          ∀ name f, Sample.ticked.1.registry.files.get? name = some f → f.name = name ∧
            ∃ f', e'.registry.files.get? name = some f' ∧
              Sample.ticked.1.TickLeft Sample.ticked.2 (60 * nanosPerSecond) names f f' w'.disk) ∧
        ∀ a b : Snapshot, a.changed (some b) = false → ∀ format : Format,
          format.encode a = format.encode b) := by
  have hon : Sample.ticked.1.isEnabled = true := by decide +kernel
  exact ⟨hon, tick_holds_of_reached Sample.reached_ticked hon (60 * nanosPerSecond)⟩

end Engine

end Keepsake
