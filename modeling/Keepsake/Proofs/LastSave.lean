import Keepsake.Proofs.Operation
import Keepsake.Proofs.Sweep
import Keepsake.Variable.Cell
/-!
# What a save-file remembers is what its save file holds

A save-file remembers a save only when all of it is done, and nothing but a save of the same
save-file touches the save file again: other save-files have other names, and so have backups.
`SaveFile.Sound` says this of one save-file, with what is needed of its name. Every pass preserves
it for the save-file that it is over (`PassEffect.sound`) and for all others
(`PassEffect.sound_other`), hence every row of passes, every operation and every run.
-/

namespace Keepsake

variable {ω ε : Type}

/--
A save-file under its own name, whose save file holds what it remembers to have saved, if
anything.
-/
structure SaveFile.Sound (f : SaveFile ω) (name : String) (s : Storage) (format : Format)
    (d : Disk) : Prop where
  named : f.name = name
  checked : f.settings.check = .ok ()
  describes : ∀ last, f.lastSave = some last → ∃ data,
    format.encode last.snapshot = .ok data ∧ s.content? d (canonicalName name) = some data

/-- Save-files each of which is sound. -/
def FilesSound (files : NameMap (SaveFile ω)) (s : Storage) (format : Format) (d : Disk) : Prop :=
  ∀ name f, files.get? name = some f → f.Sound name s format d

/-- The format does not change, and the save-files are sound. -/
def Engine.Sound (e : Engine ω) (d : Disk) : Prop :=
  FilesSound e.registry.files e.storage e.format d

namespace SaveFile

variable {f g f' : SaveFile ω} {name other : String} {s : Storage} {format : Format} {d d' : Disk}

theorem Sound.no_slash (h : f.Sound name s format d) : '/' ∉ f.name.toList :=
  FileSettings.no_slash_of_check h.checked

theorem Sound.of_content_eq (h : f.Sound name s format d)
    (heq : s.content? d' (canonicalName name) = s.content? d (canonicalName name)) :
    f.Sound name s format d' :=
  ⟨h.named, h.checked, fun last hlast => heq ▸ h.describes last hlast⟩

/-- A save-file with the settings of a sound one that remembers the same, or nothing, is sound. -/
theorem Sound.of_lastSave (h : f.Sound name s format d) (hs : g.settings = f.settings)
    (hl : g.lastSave = f.lastSave) : g.Sound name s format d :=
  ⟨(congrArg FileSettings.name hs).trans h.named, hs ▸ h.checked, hl ▸ h.describes⟩

theorem sound_ofSettings {settings : FileSettings} (h : settings.check = .ok ()) (s : Storage)
    (format : Format) (d : Disk) :
    (ofSettings settings : SaveFile ω).Sound settings.name s format d :=
  ⟨rfl, h, fun _ hlast => by cases hlast⟩

/-! ## Passes -/

section Pass

variable {now : Nat} {onlyChanged : Bool} {w : World ω} {result : PassResult}

/-- A pass leaves its save-file sound, whether it saved, found nothing changed, or failed. -/
theorem PassEffect.sound (h : PassEffect f s format now onlyChanged w result f' d)
    (hf : f.Sound name s format w.disk) : f'.Sound name s format d := by
  cases h with
  | @saved snapshot w₁ data d₁ d₂ read changed encoded backup puts =>
    refine ⟨hf.named, hf.checked, fun last hlast => ⟨data, ?_, ?_⟩⟩
    · cases hlast
      exact encoded
    · rw [← hf.named]
      exact puts.written
  | unchanged => exact hf
  | failed e backup =>
    refine hf.of_content_eq ?_
    rw [← hf.named]
    exact backup.content?_canonicalName hf.no_slash

/-- A pass leaves every other save-file sound. -/
theorem PassEffect.sound_other (h : PassEffect f s format now onlyChanged w result f' d)
    (hg : g.Sound other s format w.disk) (hne : other ≠ f.name) : g.Sound other s format d :=
  hg.of_content_eq (h.content?_other (hg.named ▸ hg.no_slash) hne)

end Pass

/-! ## Registrations -/

theorem addAccessor_eq_ok {key : String} {a : Accessor ω} (h : f.addAccessor key a = .ok f') :
    f'.settings = f.settings ∧ f'.lastSave = f.lastSave := by
  unfold addAccessor at h
  split at h
  · cases h
  · cases h
    exact ⟨rfl, rfl⟩

end SaveFile

/-! ## Save-files together -/

section Files

variable {files files' : NameMap (SaveFile ω)} {s : Storage} {format : Format} {d d' : Disk}

theorem FilesSound.no_slash (h : FilesSound files s format d) :
    ∀ x ∈ files.entries, '/' ∉ x.2.name.toList := fun x hx =>
  (h x.1 x.2 (NameMap.get?_of_mem hx)).no_slash

theorem FilesSound.of_sameSaves (h : FilesSound files s format d) (hsame : s.SameSaves d d') :
    FilesSound files s format d' := fun name f hf =>
  (h name f hf).of_content_eq (hsame name ((h name f hf).named ▸ (h name f hf).no_slash))

theorem FilesSound.insert (h : FilesSound files s format d) {name : String} {f : SaveFile ω}
    (hf : f.Sound name s format d) : FilesSound (files.insert name f) s format d := by
  intro other g hg
  rw [NameMap.get?_insert] at hg
  split at hg
  · next heq =>
    cases hg
    exact heq ▸ hf
  · exact h other g hg

/--
A row of passes over save-files that are there, each at most once, leaves all save-files sound.
-/
theorem Sweep.sound {kind : Engine.PassKind} {now : Nat} {chosen : SaveFile ω → Bool}
    {l : List (String × SaveFile ω)} {w w' : World ω} {names : List String}
    (h : Sweep s format kind now chosen l files w names files' w')
    (hl : l.Pairwise (fun a b => a.1 < b.1)) (hmem : ∀ x ∈ l, files.get? x.1 = some x.2)
    (hsound : FilesSound files s format w.disk) : FilesSound files' s format w'.disk := by
  induction h with
  | done => exact hsound
  | skip out more ih =>
    rw [List.pairwise_cons] at hl
    exact ih hl.2 (fun x hx => hmem x (List.mem_cons_of_mem _ hx)) hsound
  | @pass name f f' rest files files' w w₁ w' names result taken effect setting more ih =>
    rw [List.pairwise_cons] at hl
    have hf := hsound name f (hmem _ (List.mem_cons_self ..))
    refine ih hl.2 (fun x hx => ?_) fun other g hg => ?_
    · -- the save-files still to come are not the one that was replaced
      rw [NameMap.get?_insert, if_neg (String.ne_of_lt (hl.1 x hx))]
      exact hmem x (List.mem_cons_of_mem _ hx)
    · rw [NameMap.get?_insert] at hg
      split at hg
      · next heq =>
        cases hg
        exact heq ▸ effect.sound hf
      · next hne =>
        exact effect.sound_other (hsound other g hg) fun e => hne (e.trans hf.named).symm

end Files

/-! ## Registries -/

namespace Registry

variable {r r' : Registry ω} {s : Storage} {format : Format} {d : Disk}

theorem check_of_checkFiles {seen : List String} {l : List FileSettings}
    (h : Settings.checkFiles seen l = .ok ()) : ∀ f ∈ l, f.check = .ok () := by
  induction l generalizing seen with
  | nil => simp
  | cons f rest ih =>
    obtain ⟨u, hf, h⟩ := except_bind_eq_ok h
    split at h
    · cases h
    · intro g hg
      rcases List.mem_cons.1 hg with rfl | hg
      · exact hf
      · exact ih h g hg

theorem checkFiles_of_check {settings : Settings} {d : Disk} (h : settings.check d = .ok ()) :
    Settings.checkFiles [] settings.files = .ok () := by
  unfold Settings.check at h
  by_cases hp : settings.pollMillis = 0
  · simp only [hp, if_true] at h
    cases h
  · simp only [hp, if_false] at h
    obtain ⟨u, hf, -⟩ := except_bind_eq_ok h
    exact hf

/-- Save-files that were never saved are sound on every disk. -/
theorem sound_ofSettings {d₀ : Disk} {settings : Settings} (h : ofSettings d₀ settings = .ok r)
    (s : Storage) (format : Format) (d : Disk) : FilesSound r.files s format d := by
  obtain ⟨u, hc, h⟩ := except_bind_eq_ok h
  cases h
  have hchecked := check_of_checkFiles (checkFiles_of_check hc)
  suffices ∀ (l : List FileSettings) (m : NameMap (SaveFile ω)), (∀ f ∈ l, f.check = .ok ()) →
      FilesSound m s format d →
      FilesSound ((l.map fun f => (f.name, SaveFile.ofSettings f)).foldl
        (fun m e => m.insert e.1 e.2) m) s format d from
    this settings.files NameMap.empty hchecked fun _ _ hf => by cases hf
  intro l
  induction l with
  | nil => exact fun m _ hm => hm
  | cons f rest ih =>
    intro m hl hm
    exact ih (m.insert f.name (SaveFile.ofSettings f))
      (fun g hg => hl g (List.mem_cons_of_mem _ hg))
      (hm.insert (SaveFile.sound_ofSettings (hl f (List.mem_cons_self ..)) s format d))

theorem addPlanned_eq_ok {x : Variable ω} {planned : List (String × Option String)}
    {f f' : SaveFile ω} (h : addPlanned x f planned = .ok f') :
    f'.settings = f.settings ∧ f'.lastSave = f.lastSave := by
  induction planned generalizing f with
  | nil =>
    cases h
    exact ⟨rfl, rfl⟩
  | cons p rest ih =>
    obtain ⟨key, field⟩ := p
    obtain ⟨f₁, ha, h⟩ := except_bind_eq_ok h
    obtain ⟨hs, hl⟩ := SaveFile.addAccessor_eq_ok ha
    obtain ⟨hs', hl'⟩ := ih h
    exact ⟨hs'.trans hs, hl'.trans hl⟩

theorem fileFor_eq_ok {file : Option String} {name : String} {f : SaveFile ω}
    (h : r.fileFor file = .ok (name, f)) : r.files.get? name = some f := by
  unfold fileFor at h
  simp only [] at h
  cases hget : r.files.get? (file.getD usualFile) with
  | none =>
    rw [hget] at h
    cases h
  | some g =>
    rw [hget] at h
    cases h
    exact hget

/--
What a registration does to a registry: settings stay, and one save-file is new or has new
accessors.
-/
theorem add_eq_ok {x : Registration ω} (h : r.add x = .ok r') : r'.settings = r.settings ∧
    ∃ name f, r'.files = r.files.insert name f ∧
      ((∃ settings, settings.check = .ok () ∧ name = settings.name ∧
        f = SaveFile.ofSettings settings) ∨
        ∃ g, r.files.get? name = some g ∧ f.settings = g.settings ∧ f.lastSave = g.lastSave) := by
  cases x with
  | file settings =>
    obtain ⟨u, hc, h⟩ := except_bind_eq_ok h
    split at h
    · cases h
    · cases h
      exact ⟨rfl, _, _, rfl, Or.inl ⟨settings, hc, rfl, rfl⟩⟩
  | accessor file key a =>
    obtain ⟨⟨name, f⟩, hf, h⟩ := except_bind_eq_ok h
    obtain ⟨f', ha, h⟩ := except_bind_eq_ok h
    cases h
    exact ⟨rfl, _, _, rfl, Or.inr ⟨f, fileFor_eq_ok hf, SaveFile.addAccessor_eq_ok ha⟩⟩
  | ofVariable file key x saveValue fields =>
    obtain ⟨⟨name, f⟩, hf, h⟩ := except_bind_eq_ok h
    simp only [] at h
    split at h
    · cases h
    · obtain ⟨f', ha, h⟩ := except_bind_eq_ok h
      cases h
      exact ⟨rfl, _, _, rfl, Or.inr ⟨f, fileFor_eq_ok hf, addPlanned_eq_ok ha⟩⟩

@[simp]
theorem register_settings (r : Registry ω) (x : Registration ω) :
    (r.register x).settings = r.settings := by
  unfold register
  split
  · next h => exact (add_eq_ok h).1
  · rfl

/-- A registration leaves save-files sound, also when it fails. -/
theorem register_sound (h : FilesSound r.files s format d) (x : Registration ω) :
    FilesSound (r.register x).files s format d := by
  unfold register
  split
  · next r' hr =>
    obtain ⟨-, name, f, hfiles, ⟨settings, hc, rfl, rfl⟩ | ⟨g, hg, hs, hl⟩⟩ := add_eq_ok hr
    · rw [hfiles]
      exact h.insert (SaveFile.sound_ofSettings hc s format d)
    · rw [hfiles]
      exact h.insert ((h name g hg).of_lastSave hs hl)
  · exact h

theorem registerAll_settings (r : Registry ω) (l : List (Registration ω)) :
    (r.registerAll l).settings = r.settings := by
  induction l generalizing r with
  | nil => rfl
  | cons x rest ih => exact (ih (r.register x)).trans (register_settings r x)

theorem registerAll_sound (h : FilesSound r.files s format d) (l : List (Registration ω)) :
    FilesSound (r.registerAll l).files s format d := by
  induction l generalizing r with
  | nil => exact h
  | cons x rest ih => exact ih (register_sound h x)

end Registry

/-! ## Engines -/

namespace Engine

variable {e : Engine ω} {w : World ω}

theorem Sound.sweep (h : e.Sound w.disk) {kind : PassKind} {now : Nat} {chosen : SaveFile ω → Bool}
    {l rest : List (String × SaveFile ω)} (hl : e.registry.files.entries = l ++ rest) {w' : World ω}
    {names : List String} {files : NameMap (SaveFile ω)}
    (hsweep : Sweep e.storage e.format kind now chosen l e.registry.files w names files w') :
    FilesSound files e.storage e.format w'.disk := by
  refine hsweep.sound ?_ (fun x hx => ?_) h
  · have hasc := e.registry.files.ascending
    rw [hl, List.pairwise_append] at hasc
    exact hasc.1
  · exact NameMap.get?_of_mem (hl ▸ List.mem_append_left _ hx)

/-- Passes come to an end, and leave the engine sound. -/
theorem passes_sound (h : e.Sound w.disk) (kind : PassKind) (now : Nat)
    (chosen : SaveFile ω → Bool) :
    ∃ names e' w', (e.passes kind now chosen : Act ω ε _) w = (.ok (names, e'), w') ∧
      e'.Sound w'.disk := by
  unfold passes
  by_cases hon : e.isEnabled = true
  · obtain ⟨names, files, w', hrun, hsweep⟩ :=
      runPasses_sweep (ε := ε) e.storage e.format kind now chosen
      e.registry.files.entries e.registry.files w h.no_slash
    refine ⟨names, { e with registry := { e.registry with files } }, w', ?_, ?_⟩
    · rw [if_pos hon, Act.bind_of_ok hrun]
      rfl
    · exact h.sweep (List.append_nil _).symm hsweep
  · exact ⟨[], e, w, by rw [if_neg hon]; rfl, h⟩

/-- Every operation leaves the engine sound, whatever it comes to. -/
theorem invariant_sound : Invariant fun (e : Engine ω) d => e.Sound d where
  register e d x h := by
    have hformat : ({ e with registry := e.registry.register x } : Engine ω).format = e.format :=
      congrArg Settings.format (Registry.register_settings e.registry x)
    unfold Sound
    rw [hformat]
    exact Registry.register_sound h x
  passes _ _ kind now chosen h := passes_sound h kind now chosen
  load e w file h := h.of_sameSaves (within_load e file h.no_slash w).1
  loadAll e w h := h.of_sameSaves (within_loadAll e h.no_slash w).1

/-- An engine is sound wherever its run has led it. -/
theorem Reached.sound (h : e.Reached w) : e.Sound w.disk := by
  induction h with
  | start registry before engine w =>
    obtain ⟨u, -, h⟩ := except_bind_eq_ok engine
    cases h
    exact Registry.registerAll_sound (Registry.sound_ofSettings registry _ _ w.disk) before
  | step reached op ih => exact invariant_sound.perform ih op

end Engine

/-! ## At every point of every run -/

/--
What a save-file remembers, as seen from outside: a snapshot is there exactly if a time is, and
then the save file is there too and is the encoding of the snapshot. The first of these holds by
the make of `SaveFile.lastSave`, which has the last saved snapshot and its time in one field; what
is proved of runs is the second.
-/
def SaveFile.TellsDisk (f : SaveFile ω) (s : Storage) (format : Format) (d : Disk) : Prop :=
  ((f.lastSave.map Save.snapshot).isSome = (f.lastSave.map Save.time).isSome) ∧
    ∀ snapshot, f.lastSave.map Save.snapshot = some snapshot →
      s.contains d (canonicalName f.name) = true ∧
        ∃ data, format.encode snapshot = .ok data ∧
          d.read (s.locate d (canonicalName f.name)) = .ok data

theorem SaveFile.Sound.tellsDisk {f : SaveFile ω} {name : String} {s : Storage} {format : Format}
    {d : Disk} (h : f.Sound name s format d) : f.TellsDisk s format d := by
  refine ⟨by simp, ?_⟩
  intro snapshot hs
  obtain ⟨last, hlast, rfl⟩ := Option.map_eq_some_iff.1 hs
  obtain ⟨data, hdata, hcontent⟩ := h.describes last hlast
  rw [← h.named] at hcontent
  refine ⟨?_, data, hdata, Storage.read_eq_ok_iff.2 hcontent⟩
  rw [Storage.contains_eq, hcontent]
  rfl

/--
Whatever is done with an engine from its start, in whatever world, every save-file tells what is
on the disk. This holds between operations, where no pass is `passed` yet, and between the passes
of one.
-/
theorem saveFile_tellsDisk_of_reached {e : Engine ω} {w : World ω} (h : e.Reached w)
    (kind : Engine.PassKind) (now : Nat) (chosen : SaveFile ω → Bool)
    {passed coming : List (String × SaveFile ω)}
    (hpoint : e.registry.files.entries = passed ++ coming) :
    ∃ names files w', (Engine.runPasses e.storage e.format kind now chosen passed e.registry.files :
        Act ω Failure _) w = (.ok (names, files), w') ∧
      ∀ name f, files.get? name = some f → f.TellsDisk e.storage e.format w'.disk := by
  have hslash : ∀ x ∈ passed, '/' ∉ x.2.name.toList := fun x hx =>
    h.sound.no_slash x (hpoint ▸ List.mem_append_left _ hx)
  obtain ⟨names, files, w', hrun, hsweep⟩ :=
    Engine.runPasses_sweep (ε := Failure) e.storage e.format kind now chosen passed
      e.registry.files w hslash
  exact ⟨names, files, w', hrun, fun name f hf => (h.sound.sweep hpoint hsweep name f hf).tellsDisk⟩

namespace Sample

/-- Settings with one save-file, in the root of the disk. -/
def settings : Settings := { Settings.ofDirectory "/" with files := [FileSettings.named "auto"] }

/-- The registry that the settings make. -/
def registry : Registry ω :=
  ⟨{ settings with files := [] }, NameMap.empty.insert "auto" (SaveFile.ofSettings (.named "auto"))⟩

/-- An engine with some registrations. -/
def engine (before : List (Registration ω)) : Engine ω := ⟨registry.registerAll before, .plain "/"⟩

def world (vars : ω) (disk : Disk) : World ω where
  vars := vars
  disk := disk
  clock := ⟨2024, 2, 29, 12, 0, 0⟩
  calls := 0
  plan := fun _ _ => none
  log := []
  metrics := Metrics.zero

theorem reached (before : List (Registration ω)) (w : World ω) : (engine before).Reached w := by
  have hsettings : settings.check Disk.bare = .ok () := except_eq_ok_of_isOk (by decide +kernel)
  have hregistry : Registry.ofSettings Disk.bare settings = .ok (registry : Registry ω) := by
    rw [Registry.ofSettings, hsettings]
    rfl
  have hengine : Engine.ofRegistry Disk.bare (registry.registerAll before) (.plain "/")
      = .ok (engine before) := by
    have hchecked : ({ settings with files := [] } : Settings).check Disk.bare = .ok () :=
      except_eq_ok_of_isOk (by decide +kernel)
    rw [Engine.ofRegistry, Registry.registerAll_settings]
    show Settings.check Disk.bare { settings with files := [] } >>= _ = _
    rw [hchecked]
    rfl
  exact .start hregistry before hengine w

/-- An engine over one cell, and its world behind a first tick. -/
def ticked : Engine Cell × World Cell :=
  (engine [.accessor none "greeting" Cell.accessor]).perform
    (world (Cell.ofValue (.text "hello")) Disk.bare) (.tick 5)

theorem reached_ticked : ticked.1.Reached ticked.2 := (reached _ _).step (.tick 5)

end Sample

/--
The only save-file of an engine remembers its first save, which is there behind the next flush.
-/
theorem saveFile_tellsDisk_sample :
    (Sample.ticked.1.registry.files.get? "auto").map (fun f => f.lastSave.isSome) = some true ∧
      ∃ names files w', (Engine.runPasses Sample.ticked.1.storage Sample.ticked.1.format .flush 6
          (fun _ => true) Sample.ticked.1.registry.files.entries Sample.ticked.1.registry.files :
          Act Cell Failure _) Sample.ticked.2 = (.ok (names, files), w') ∧
        ∀ name f, files.get? name = some f →
          f.TellsDisk Sample.ticked.1.storage Sample.ticked.1.format w'.disk :=
  ⟨by decide +kernel,
    saveFile_tellsDisk_of_reached Sample.reached_ticked .flush 6 (fun _ => true)
      (List.append_nil _).symm⟩

end Keepsake
