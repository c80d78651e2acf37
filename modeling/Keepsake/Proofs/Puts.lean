import Keepsake.Proofs.AllOrNothing
import Keepsake.Proofs.Turn
/-!
# What all files that are put keep

Operations of an engine change a disk in one way only: a file is put where its name leads to an
entry, and the name is that of a save file or a backup. (A temporary file is gone behind the call
that made it.) So a property of disks that every such file keeps (`KeptByPuts`) is kept by passes and
loads, however they end, and it is one of those that hold wherever a run comes to
(`Engine.invariant_of_puts`).
-/

namespace Keepsake

variable {ω ε : Type} {s : Storage} {name : String} {P : Disk → Prop}

/-- Whether a property of disks is kept by all files of a save-file that stay. -/
def KeptByPuts (P : Disk → Prop) (s : Storage) (name : String) : Prop :=
  ∀ (d : Disk) (path : Path) (file : String) (data : ByteArray), IsLastingName name file →
    s.locate d file = .ok (.entry path file) → P d → P (d.setFile path file data)

/-! ## Passes and loads -/

/-- A property of the disk holds, if it did. -/
def Act.Frame.disk (P : Disk → Prop) : Act.Frame ω where
  keeps w w' := P w.disk → P w'.disk
  alike h := h.disk ▸ id
  trans h h' := h' ∘ h

theorem Act.Within.disk {α : Type} {x : Act ω ε α} (h : Act.Within .butVars x)
    (P : Disk → Prop) : Act.Within (.disk P) x :=
  h.mono fun _ _ h hdisk => h.disk.symm ▸ hdisk

theorem within_takeBackup_disk (hP : KeptByPuts P s name) (hn : '/' ∉ name.toList)
    (mode : BackupMode) (stamp : Stamp) :
    Act.Within (.disk P) (takeBackup s name mode stamp : Act ω Failure _) := by
  intro w h
  have hleaves := takeBackup_leaves s name mode stamp w
  show P (takeBackup s name mode stamp w).2.disk
  generalize (takeBackup s name mode stamp w).2.disk = d at hleaves ⊢
  cases hleaves with
  | nothing => exact h
  | copied family place there source =>
    obtain rfl := Storage.locate_entry (isEntryName_of_isBackupName hn family) place
    exact hP _ _ _ _ (.backup family) place h

theorem Storage.within_write_disk (hP : KeptByPuts P s name) (hn : '/' ∉ name.toList)
    (data : ByteArray) :
    Act.Within (.disk P) (s.write data (canonicalName name) : Act ω Failure _) := by
  intro w h
  rcases write_run s data (canonicalName name) w with ⟨path, file, hl, -, heq⟩ | ⟨-, heq⟩
  · obtain rfl := locate_entry (isEntryName_canonicalName hn) hl
    rw [heq]
    exact hP _ _ _ _ .canonical hl h
  · rw [heq]
    exact h

namespace SaveFile

theorem within_pass_disk (f : SaveFile ω) (hP : KeptByPuts P s f.name) (hn : '/' ∉ f.name.toList)
    (format : Format) (now : Nat) (onlyChanged : Bool) :
    Act.Within (.disk P) (f.pass s format now onlyChanged : Act ω ε _) :=
  within_pass (fun e _ => (Act.within_onVars e.2.get).disk P)
    (within_takeBackup_disk hP hn f.settings.backupMode) (Storage.within_write_disk hP hn) format
    now onlyChanged

theorem within_load_disk (f : SaveFile ω) (hP : KeptByPuts P s f.name) (hn : '/' ∉ f.name.toList)
    (format : Format) : Act.Within (.disk P) (f.load s format) :=
  within_load (fun e _ v => (Act.within_onVars (e.2.set v)).disk P)
    (within_takeBackup_disk hP hn f.settings.backupMode) format

end SaveFile

/-! ## Runs -/

namespace Engine

variable {Q : Storage → Disk → Prop}

/-- A registration leaves all save-files under their own names, also when it fails. -/
theorem WellNamed.register {e : Engine ω} (h : e.WellNamed) (x : Registration ω) :
    ({ e with registry := e.registry.register x } : Engine ω).WellNamed := by
  show WellNamed { e with registry := e.registry.register x }
  unfold Registry.register
  split
  · next r' hr =>
    obtain ⟨-, name, f, hfiles, ⟨settings, hcheck, rfl, rfl⟩ | ⟨g, hg, hsettings, -⟩⟩ :=
      Registry.add_eq_ok hr
    · intro other g hg
      rw [hfiles] at hg
      exact h.insert (f := SaveFile.ofSettings settings) rfl hcheck other g hg
    · have hname := congrArg FileSettings.name hsettings
      obtain ⟨hgname, hgcheck⟩ := h name g hg
      intro other g hg
      rw [hfiles] at hg
      exact h.insert (hname.trans hgname) (hsettings ▸ hgcheck) other g hg
  · exact h

/-- Whether a property is kept by the files of all save-files with accepted settings. -/
def AllPutsKeep (Q : Storage → Disk → Prop) : Prop :=
  ∀ (s : Storage) (f : FileSettings), f.check = .ok () → KeptByPuts (Q s) s f.name

theorem passes_keep (hQ : AllPutsKeep Q) {e : Engine ω} {w : World ω} (h : e.WellNamed)
    (hdisk : Q e.storage w.disk) (kind : PassKind) (now : Nat) (chosen : SaveFile ω → Bool) :
    ∃ names e' w', (e.passes kind now chosen : Act ω Failure _) w = (.ok (names, e'), w') ∧
      e'.WellNamed ∧ Q e'.storage w'.disk := by
  unfold passes
  split
  · obtain ⟨names, files, w', hrun, -⟩ := runPasses_sweep (ε := Failure) e.storage e.format kind now
      chosen e.registry.files.entries e.registry.files w fun x hx => (h.of_mem hx).2
    have hpass : ∀ x ∈ e.registry.files.entries, Act.Within (.disk (Q e.storage))
        (x.2.pass e.storage e.format now (kind = .tick) : Act ω Failure _) := fun x hx =>
      x.2.within_pass_disk (hQ e.storage _ (h x.1 x.2 (NameMap.get?_of_mem hx)).2)
        (h.of_mem hx).2 e.format now (kind = .tick)
    have hkept := within_runPasses hpass chosen e.registry.files w hdisk
    rw [hrun] at hkept
    exact ⟨names, _, w', Act.bind_of_ok hrun, h.withFiles hrun, hkept⟩
  · exact ⟨[], e, w, rfl, h, hdisk⟩

theorem WellNamed.within_load (hQ : AllPutsKeep Q) {e : Engine ω} (h : e.WellNamed) {name : String}
    {f : SaveFile ω} (hf : e.registry.files.get? name = some f) :
    Act.Within (.disk (Q e.storage)) (f.load e.storage e.format) :=
  f.within_load_disk (hQ e.storage _ (h name f hf).2) (h.no_slash hf) e.format

/--
What all files that are put keep holds wherever a run comes to, beside the names of the save-files.
-/
theorem invariant_of_puts (hQ : AllPutsKeep Q) :
    Invariant fun (e : Engine ω) d => e.WellNamed ∧ Q e.storage d where
  register e d x h := ⟨h.1.register x, h.2⟩
  passes e w kind now chosen h := passes_keep hQ h.1 h.2 kind now chosen
  load e w file h := by
    refine ⟨h.1, ?_⟩
    unfold load
    cases hget : e.registry.files.get? file with
    | none => exact h.2
    | some f => exact h.1.within_load hQ hget w h.2
  loadAll e w h := by
    refine ⟨h.1, ?_⟩
    unfold loadAll
    split
    · exact within_loadFiles e (fun x hx => h.1.within_load hQ (NameMap.get?_of_mem hx)) w h.2
    · exact h.2

end Engine

end Keepsake
