import Keepsake.Proofs.NameSpace
/-!
# Pruning deletes nothing of another save-file

What is pruned of a save-file has been listed as its backup, and no file of another save-file ever
is. So the entries of all other save-files are as they were, however pruning ends.
-/

namespace Keepsake

variable {ω ε : Type}

/-! ## Listing -/

theorem listBackups_eq_ok {s : Storage} {name : String} {w w' : World ω}
    {entries : List BackupEntry} (h : listBackups s name w = (.ok entries, w')) :
    ∃ files, entries = BackupEntry.listOf name files := by
  obtain ⟨files, w₁, -, h⟩ := Act.bind_eq_ok h
  cases h
  exact ⟨files, rfl⟩

theorem within_listBackups {F : Act.Frame ω} (s : Storage) (name : String) :
    Act.Within F (listBackups s name) :=
  Act.Within.bind (fun w => F.alike (s.list_alike w)) fun _ => Act.within_pure _

/-- No file of a save-file is listed as a backup of another one. -/
theorem not_mem_of_listBackups {s : Storage} {name other file : String} {w w' : World ω}
    {entries : List BackupEntry} (h : listBackups s other w = (.ok entries, w'))
    (hfile : IsNameOf name file) (hne : name ≠ other) : file ∉ entries.map BackupEntry.file := by
  obtain ⟨files, rfl⟩ := listBackups_eq_ok h
  exact hfile.not_mem_listOf hne files

/-! ## Pruning -/

theorem within_deleteBackups {s : Storage} {P : String → Prop} {l : List BackupEntry}
    (h : ∀ e ∈ l, IsEntryName e.file ∧ ¬P e.file) :
    Act.Within (.entries s P) (deleteBackups s l : Act ω Failure _) := by
  induction l with
  | nil => exact Act.within_pure _
  | cons e rest ih =>
    rw [List.forall_mem_cons] at h
    refine Act.Within.bind ?_ fun _ => (Act.within_tell _ _ _ _).bind fun _ =>
      (ih h.2).bind fun _ => Act.within_pure _
    intro w
    obtain ⟨hentries, hw⟩ := s.delete_sameEntries h.1.1 w
    refine ⟨hentries.mono fun name hP heq => h.1.2 (heq ▸ hP), hw.toSameSetting⟩

theorem within_pruneBackups (s : Storage) {name other : String} (ho : '/' ∉ other.toList)
    (hne : name ≠ other) (keep : Nat) :
    Act.Within (.entries s (IsNameOf name)) (pruneBackups s other keep : Act ω Failure _) := by
  refine (within_listBackups s other).bind_of_ok fun w entries w' hlist => ?_
  refine within_deleteBackups (fun e he => ?_) w'
  have he : e ∈ entries := (List.mem_filter.1 (List.mem_of_mem_take he)).1
  refine ⟨?_, fun hname =>
    not_mem_of_listBackups hlist hname hne (List.mem_map_of_mem he)⟩
  obtain ⟨files, rfl⟩ := listBackups_eq_ok hlist
  rcases BackupEntry.cases_of_mem_listOf he with hrot | hmark
  · exact hrot ▸ isEntryName_rotatingName ho
  · exact hmark.isEntryName ho

/-! ## Two save-files -/

/-- What keeps the files of a save-file apart from those of another one. -/
structure NamesApart (name other : String) : Prop where
  /-- each name is one part of a path, and leads directly into the folder of the storage -/
  inside : ∀ file, IsNameOf name file → IsEntryName file ∧
    ∀ (s : Storage) (d : Disk) (place : Place), s.locate d file = .ok place →
      ∃ dir, s.home d = .ok dir ∧ (place = .entry dir file ∨ place = .folder (dir ++ [file]))
  /-- what stays has neither a lasting name of the other nor that of a temporary file -/
  different : ∀ file, IsLastingName name file → ¬IsLastingName other file ∧
    ∀ letters owner, file ≠ Storage.temporaryNameWith letters (canonicalName owner)
  /-- no file is listed as a backup of the other -/
  unlisted : ∀ file, IsNameOf name file → ∀ (ω : Type) (s : Storage) (w w' : World ω) entries,
    listBackups s other w = (.ok entries, w') → file ∉ entries.map BackupEntry.file
  /-- pruning the other leaves every entry as it is -/
  unpruned : ∀ (ω : Type) (s : Storage) (keep : Nat) (w : World ω),
    s.SameEntries (IsNameOf name) w.disk (pruneBackups s other keep w).2.disk

theorem namesApart_of_ne {name other : String} (hn : '/' ∉ name.toList) (ho : '/' ∉ other.toList)
    (hne : name ≠ other) : NamesApart name other where
  inside file hfile := by
    refine ⟨hfile.isEntryName hn, fun s d place hl => ?_⟩
    obtain ⟨dir, hdir, -, hplace⟩ := Storage.home_of_locate (hfile.isEntryName hn) hl
    exact ⟨dir, hdir, hplace⟩
  different file hfile :=
    ⟨fun hother => hne (hfile.injective hother), fun letters owner =>
      hfile.ne_temporaryNameWith letters (canonicalName owner)⟩
  unlisted file hfile ω s w w' entries hlist := not_mem_of_listBackups hlist hfile hne
  unpruned ω s keep w := (within_pruneBackups s ho hne keep w).1

/-- Save-files whose settings are accepted share nothing, whatever their names hold. -/
theorem namesApart_of_check {f g : FileSettings} (hf : f.check = .ok ()) (hg : g.check = .ok ())
    (hne : f.name ≠ g.name) : NamesApart f.name g.name ∧ NamesApart g.name f.name :=
  have hf := FileSettings.no_slash_of_check hf
  have hg := FileSettings.no_slash_of_check hg
  ⟨namesApart_of_ne hf hg hne, namesApart_of_ne hg hf hne.symm⟩

/-- A save-file is not taken for the backup of another one that it is named like. -/
theorem namesApart_lookalike :
    ((FileSettings.named "auto").check = .ok () ∧
      (FileSettings.named "auto.softsav_240229-120000").check = .ok () ∧
      (FileSettings.named "auto").name ≠ (FileSettings.named "auto.softsav_240229-120000").name) ∧
      NamesApart "auto" "auto.softsav_240229-120000" ∧
        NamesApart "auto.softsav_240229-120000" "auto" := by
  have hf : (FileSettings.named "auto").check = .ok () := except_eq_ok_of_isOk (by decide +kernel)
  have hg : (FileSettings.named "auto.softsav_240229-120000").check = .ok () :=
    except_eq_ok_of_isOk (by decide +kernel)
  have hne : (FileSettings.named "auto").name ≠
    (FileSettings.named "auto.softsav_240229-120000").name := by decide
  exact ⟨⟨hf, hg, hne⟩, namesApart_of_check hf hg hne⟩

end Keepsake
