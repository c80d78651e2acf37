import Keepsake.Proofs.PruneFront
import Keepsake.Proofs.Puts
/-!
# Files keep names of files

What is told of listings and of pruning takes for granted that the files of a folder are named as
files are (`Storage.FilesNamed`). Where this is so from the start nothing makes it otherwise: a file
is put only where its name leads to an entry (`Storage.isFileName_of_locate`), and files that are
taken away leave the others as they were. So it is kept by each pass, by each load and by pruning,
and it is so wherever a run comes to (`Engine.filesNamed_performAll`).
-/

namespace Keepsake

variable {ω ε α : Type} {s : Storage} {d d' : Disk}

/-! ## Folders -/

namespace Storage

/-- Where a name leads to an entry it is the name of a file. -/
theorem isFileName_of_locate {name : String} {dir : Path} (hn : IsEntryName name)
    (hl : s.locate d name = .ok (.entry dir name)) :
    Disk.isPlainName name = true ∧ name.utf8ByteSize ≤ Path.nameLimit ∧
      d.folder? (dir ++ [name]) = none := by
  have hfolder := (home_of_locate_entry hn hl).2
  rw [locate_eq s d hn] at hl
  split at hl
  · cases hl
  · next hzero =>
    obtain ⟨home, -, hwalk⟩ := except_bind_eq_ok hl
    rw [Disk.walk_singleton d home hn] at hwalk
    split at hwalk
    · cases hwalk
    · next hlong =>
      refine ⟨Disk.isPlainName_of_isEntryName hn hzero, Nat.le_of_not_lt hlong, ?_⟩
      simpa using hfolder

/-- Between the same folders it is enough that new files are where their names lead. -/
theorem FilesNamed.of_sameFolders (h : s.FilesNamed d) (hsame : d.SameFolders d')
    (hfiles : ∀ dir file, d.locate s.base = .ok (.folder dir) →
      (d'.file? dir file).isSome = true → (d.file? dir file).isSome = true ∨
        IsEntryName file ∧ s.locate d file = .ok (.entry dir file)) : s.FilesNamed d' := by
  intro dir f hd hf file hfile
  replace hd := Disk.locate_of_sameFolders hsame.symm hd
  have hthere : (d'.file? dir file).isSome = true := by
    rw [Disk.file?, hf]
    exact (NameMap.mem_keys_iff f file).1 hfile
  have hname : Disk.isPlainName file = true ∧ file.utf8ByteSize ≤ Path.nameLimit ∧
      d.folder? (dir ++ [file]) = none := by
    rcases hfiles dir file hd hthere with hold | ⟨hn, hl⟩
    · cases hg : d.folder? dir with
      | none =>
        rw [Disk.file?, hg] at hold
        cases hold
      | some g =>
        rw [Disk.file?, hg] at hold
        exact h dir g hd hg file ((NameMap.mem_keys_iff g file).2 hold)
    · exact isFileName_of_locate hn hl
  refine ⟨hname.1, hname.2.1, ?_⟩
  have hfolder := hsame.folders (dir ++ [file])
  rw [hname.2.2] at hfolder
  simpa using hfolder

theorem FilesNamed.setFile (h : s.FilesNamed d) {name : String} {path : Path}
    (hn : IsEntryName name) (hl : s.locate d name = .ok (.entry path name)) (data : ByteArray) :
    s.FilesNamed (d.setFile path name data) := by
  refine h.of_sameFolders (Disk.sameFolders_setFile d path name data) fun dir file hd hfile => ?_
  by_cases hname : name = file
  · subst hname
    have hhome := (home_of_locate_entry hn hl).1
    rw [home_of_base hd] at hhome
    cases hhome
    exact Or.inr ⟨hn, hl⟩
  · rw [Disk.file?_setFile_of_ne hname] at hfile
    exact Or.inl hfile

theorem FilesNamed.dropFile (h : s.FilesNamed d) (path : Path) (name : String) :
    s.FilesNamed (d.dropFile path name) := by
  refine h.of_sameFolders (Disk.sameFolders_dropFile d path name) fun dir file _ hfile => ?_
  rw [show d.dropFile path name = d.dropFiles path [name] from rfl,
    Disk.file?_dropFiles_at] at hfile
  split at hfile
  · cases hfile
  · exact Or.inl hfile

end Storage

/-! ## Operations -/

/-- Files are named as files are, if they were. -/
def Act.Frame.named (s : Storage) : Act.Frame ω where
  keeps w w' := s.FilesNamed w.disk → s.FilesNamed w'.disk
  alike h := h.disk ▸ id
  trans h h' := h' ∘ h

theorem Storage.within_delete_named (s : Storage) (name : String) :
    Act.Within (.named s) (s.delete name : Act ω Failure _) := by
  intro w h
  unfold delete
  rcases call_cases s .delete _ w with heq | ⟨-, -, heq⟩
  · rw [heq]
    rcases onDisk_orFail_cases ("Failed to delete " ++ s.pathOf name)
      (fun d => d.delete (s.locate d name)) w.called with ⟨d', hd', heq⟩ | ⟨-, heq⟩
    · rw [heq]
      unfold Disk.delete at hd'
      split at hd'
      · cases hd'
        exact h
      · split at hd'
        · cases hd'
        · cases hd'
          exact h
      · cases hd'
        exact h.dropFile _ _
    · rw [heq]
      exact h
  · rw [heq]
    exact h

theorem within_deleteBackups_named (s : Storage) (l : List BackupEntry) :
    Act.Within (.named s) (deleteBackups s l : Act ω Failure _) := by
  induction l with
  | nil => exact Act.within_pure _
  | cons e rest ih =>
    exact (s.within_delete_named e.file).bind fun _ => (Act.within_tell _ _ _ _).bind fun _ =>
      ih.bind fun _ => Act.within_pure _

/-- Pruning leaves files with names of files, whether or not it is struck. -/
theorem filesNamed_pruneBackups {w : World ω} (h : s.FilesNamed w.disk) (name : String)
    (keep : Nat) : s.FilesNamed (pruneBackups s name keep w).2.disk :=
  (within_listBackups s name).bind (fun _ => within_deleteBackups_named s _) w h

/-! ## Runs -/

namespace Engine

/-- Files that are put leave names of files, as they are put only at entries. -/
theorem invariant_named :
    Invariant fun (e : Engine ω) d => e.WellNamed ∧ e.storage.FilesNamed d :=
  invariant_of_puts fun _ _ hcheck _ _ _ data hfile hl h =>
    h.setFile (hfile.isEntryName (FileSettings.no_slash_of_check hcheck)) hl data

/-- A sound engine whose storage has files with names of files. -/
structure Tidy (e : Engine ω) (d : Disk) : Prop where
  sound : e.Sound d
  named : e.storage.FilesNamed d

theorem invariant_tidy : Invariant fun (e : Engine ω) d => e.Tidy d where
  register e d x h := ⟨invariant_sound.register e d x h.sound, h.named⟩
  passes e w kind now chosen h := by
    obtain ⟨names, e', w', hrun, hsound⟩ := passes_sound (ε := Failure) h.sound kind now chosen
    obtain ⟨_, _, _, hrun', -, hnamed⟩ :=
      invariant_named.passes e w kind now chosen ⟨h.sound.wellNamed, h.named⟩
    cases hrun.symm.trans hrun'
    exact ⟨names, e', w', hrun, hsound, hnamed⟩
  load e w file h := ⟨invariant_sound.load e w file h.sound,
    (invariant_named.load e w file ⟨h.sound.wellNamed, h.named⟩).2⟩
  loadAll e w h := ⟨invariant_sound.loadAll e w h.sound,
    (invariant_named.loadAll e w ⟨h.sound.wellNamed, h.named⟩).2⟩

/-- Files that had names of files from the start have them wherever a run comes to. -/
theorem filesNamed_performAll {e : Engine ω} {w : World ω} (h : e.Sound w.disk)
    (hnamed : e.storage.FilesNamed w.disk) (ops : List (Operation ω)) :
    (e.performAll w ops).1.storage.FilesNamed (e.performAll w ops).2.disk :=
  (invariant_tidy.performAll ⟨h, hnamed⟩ ops).named

end Engine

end Keepsake
