import Keepsake.Proofs.Number.Nearest
import Keepsake.Proofs.Tick
/-!
# Periods and when a save is due again

The period of a save-file is its seconds to the nearest nanosecond, so of two settings the one
with more seconds never has the shorter period. Settings are accepted for seconds above zero, and
that does not make the period one: up to half a nanosecond (`IsInstant`) rounds to no time at all.

A save that a pass has made is remembered with the instant of the pass. At this instant the
save-file is due again exactly if its period is no time, so a pass at the same instant passes over
what was saved, unless the seconds are at most half a nanosecond (`period_and_due`).
-/

namespace Keepsake

variable {ω ε : Type}

namespace FileSettings

/-! ## Seconds and nanoseconds -/

/-- Whether the seconds come to half a nanosecond at most. -/
def IsInstant (f : FileSettings) : Prop :=
  2 * (f.seconds.units * nanosPerSecond) ≤ Binary64.unitsPerOne

instance (f : FileSettings) : Decidable f.IsInstant := by
  unfold IsInstant
  infer_instance

variable {f g : FileSettings}

/-- The seconds of accepted settings are counted without looking at signs or words that are none. -/
theorem period_of_check (h : f.check = .ok ()) : f.period = min longestSpan
    (Binary64.divNearest (f.seconds.units * nanosPerSecond) Binary64.unitsPerOne) := by
  unfold check at h
  split at h
  · cases h
  · split at h
    · cases h
    · split at h
      · cases h
      · next hseconds =>
        have hsound : f.seconds.isFinite = true ∧ f.seconds.isPositive = true := by
          simpa using hseconds
        have hsign : f.seconds.negative = false := by
          have hpositive := hsound.2
          simp only [Binary64.isPositive, Bool.and_eq_true, Bool.not_eq_true'] at hpositive
          exact hpositive.1.1
        unfold period spanOfSeconds
        rw [if_neg (by simp [hsound.1, hsign])]
        simp only []
        generalize Binary64.divNearest _ _ = n
        split <;> omega

theorem period_eq_zero_iff (h : f.check = .ok ()) : f.period = 0 ↔ f.IsInstant := by
  have hlongest : longestSpan ≠ 0 := by decide
  rw [period_of_check h, IsInstant, ← Binary64.divNearest_eq_zero_iff Binary64.unitsPerOne_pos]
  generalize Binary64.divNearest _ _ = n
  omega

theorem period_mono (hf : f.check = .ok ()) (hg : g.check = .ok ())
    (h : f.seconds.units ≤ g.seconds.units) : f.period ≤ g.period := by
  have hnanos := Binary64.divNearest_mono Binary64.unitsPerOne_pos
    (Nat.mul_le_mul_right nanosPerSecond h)
  rw [period_of_check hf, period_of_check hg]
  omega

end FileSettings

/-! ## Saves and the instants after them -/

theorem SaveFile.isDue_of_lastSave {f : SaveFile ω} {last : Save} (h : f.lastSave = some last) :
    f.isDue last.time = true ↔ f.settings.period = 0 := by
  simp [isDue, h]

/-- What a pass has saved is remembered with the instant of the pass. -/
theorem Engine.exists_passes_saved {e : Engine ω} {w : World ω} (h : e.Sound w.disk)
    (kind : PassKind) (now : Nat) (chosen : SaveFile ω → Bool) :
    ∃ names e' w', (e.passes kind now chosen : Act ω Failure _) w = (.ok (names, e'), w') ∧
      ∀ name ∈ names, ∃ f f' snapshot, e.registry.files.get? name = some f ∧
        e'.registry.files.get? name = some f' ∧ f'.settings = f.settings ∧
        f'.lastSave = some ⟨snapshot, now⟩ := by
  unfold passes
  split
  · obtain ⟨names, files, w', hrun, hsweep⟩ := runPasses_sweep (ε := Failure) e.storage e.format
      kind now chosen e.registry.files.entries e.registry.files w h.no_slash
    have hnamed : ∀ x ∈ e.registry.files.entries, x.2.name = x.1 := fun x hx =>
      (h x.1 x.2 (NameMap.get?_of_mem hx)).named
    refine ⟨names, _, w', Act.bind_of_ok hrun, fun name hname => ?_⟩
    have hkey : name ∈ e.registry.files.keys := (hsweep.names_sublist hnamed).subset hname
    obtain ⟨f, hf⟩ := Option.isSome_iff_exists.1 ((NameMap.mem_keys_iff _ name).1 hkey)
    obtain rfl : f.name = name := (h name f hf).named
    obtain ⟨f', hget, hleft⟩ := runPasses_left h kind now chosen hf hrun
    cases hleft with
    | out _ _ unnamed _ => exact absurd hname unnamed
    | passed _ _ _ effect named _ =>
      obtain rfl := named.1 hname
      cases effect with
      | saved _ _ _ _ _ => exact ⟨f, _, _, hf, hget, rfl, rfl⟩
  · exact ⟨[], e, w, rfl, nofun⟩

/--
The period of accepted settings is no time exactly if the seconds are at most half a nanosecond, and
more seconds never make it shorter. So wherever the run of an engine has led, what a tick or a
flush saves is due again at the same instant exactly if its seconds are that few.
-/
theorem FileSettings.period_and_due :
    (∀ f : FileSettings, f.check = .ok () → (f.period = 0 ↔ f.IsInstant)) ∧
    (∀ f g : FileSettings, f.check = .ok () → g.check = .ok () →
      f.seconds.units ≤ g.seconds.units → f.period ≤ g.period) ∧
    ∀ (e : Engine ω) (w : World ω), e.Reached w → ∀ kind now chosen, ∃ names e' w',
      (e.passes kind now chosen : Act ω Failure _) w = (.ok (names, e'), w') ∧
        ∀ name ∈ names, ∃ f' snapshot, e'.registry.files.get? name = some f' ∧
          f'.lastSave = some ⟨snapshot, now⟩ ∧
          (f'.isDue now = true ↔ f'.settings.IsInstant) := by
  refine ⟨fun f h => period_eq_zero_iff h, fun f g hf hg h => period_mono hf hg h,
    fun e w h kind now chosen => ?_⟩
  obtain ⟨names, e', w', hrun, hsaved⟩ := Engine.exists_passes_saved h.sound kind now chosen
  refine ⟨names, e', w', hrun, fun name hname => ?_⟩
  obtain ⟨f, f', snapshot, hf, hf', hsettings, hlast⟩ := hsaved name hname
  have hcheck : f'.settings.check = .ok () := hsettings ▸ (h.sound name f hf).checked
  exact ⟨f', snapshot, hf', hlast,
    (SaveFile.isDue_of_lastSave hlast).trans (period_eq_zero_iff hcheck)⟩

namespace Sample

/-- Settings with a tenth of a nanosecond. -/
def hasty : FileSettings :=
  { FileSettings.named "hasty" with seconds := Binary64.ofBits 0x3DDB7CDFD9D7BDBB }

/-- An engine with the usual save-file and a hasty one, and its world behind a first tick. -/
def hastyTicked : Engine Cell × World Cell :=
  (engine [.file hasty]).perform (world (Cell.ofValue (.text "hello")) Disk.bare) (.tick 5)

end Sample

theorem FileSettings.period_and_due_sample :
    Sample.hasty.check = .ok () ∧ Sample.hasty.period ≤ (FileSettings.named "auto").period ∧
      ∃ names e' w', (Sample.hastyTicked.1.passes .flush 7 (fun _ => true) : Act Cell Failure _)
          Sample.hastyTicked.2 = (.ok (names, e'), w') ∧
        ∀ name ∈ names, ∃ f' snapshot, e'.registry.files.get? name = some f' ∧
          f'.lastSave = some ⟨snapshot, 7⟩ ∧ (f'.isDue 7 = true ↔ f'.settings.IsInstant) := by
  have hhasty : Sample.hasty.check = .ok () := except_eq_ok_of_isOk (by decide +kernel)
  have husual : (named "auto").check = .ok () := except_eq_ok_of_isOk (by decide +kernel)
  obtain ⟨-, hmono, hdue⟩ := period_and_due (ω := Cell)
  exact ⟨hhasty, hmono _ _ hhasty husual (by decide +kernel),
    hdue _ _ ((Sample.reached _ _).step (.tick 5)) .flush 7 fun _ => true⟩

/-- A save-file with accepted settings is due again at the instant at which a tick has saved it. -/
theorem Engine.hasty_due_again :
    Sample.hasty.check = .ok () ∧ Sample.hasty.period = 0 ∧
      Sample.hastyTicked.1.Reached Sample.hastyTicked.2 ∧
      (Sample.hastyTicked.1.registry.files.get? "hasty").map
        (fun f => (f.lastSave.map (·.time), f.isDue 5)) = some (some 5, true) :=
  ⟨except_eq_ok_of_isOk (by decide +kernel), by decide +kernel, (Sample.reached _ _).step (.tick 5),
    by decide +kernel⟩

end Keepsake
