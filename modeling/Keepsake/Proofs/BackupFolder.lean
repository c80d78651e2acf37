import Keepsake.Proofs.BackupList
/-!
# The backups that a folder has

Which timestamped backups of a save-file a folder has is told by its files under marked names
(`Storage.Holds`): nothing that leaves these alone makes a difference, a file put under a free name
adds its backup, and files that are taken out take theirs with them.
-/

namespace Keepsake

/-- A path that leads somewhere is not empty. -/
theorem Disk.isEmpty_of_locate {d : Disk} {path : String} {place : Place}
    (h : d.locate path = .ok place) : path.isEmpty = false := by
  rw [Bool.eq_false_iff]
  intro hempty
  rw [locate, if_pos hempty] at h
  split at h <;> cases h

namespace Storage

/-! ## Folders with the same backups -/

/-- The same folder with the same files under the marked names of a save-file. -/
structure SameBackups (s : Storage) (name : String) (d d' : Disk) : Prop where
  base : ∀ dir, d.locate s.base = .ok (.folder dir) → d'.locate s.base = .ok (.folder dir)
  there : ∀ dir, d.locate s.base = .ok (.folder dir) →
    (d'.folder? dir).isSome = (d.folder? dir).isSome
  files : ∀ dir, d.locate s.base = .ok (.folder dir) → ∀ file, IsMarked name file →
    d'.file? dir file = d.file? dir file
  folders : ∀ dir, d.locate s.base = .ok (.folder dir) → ∀ file, IsMarked name file →
    (d'.folder? (dir ++ [file])).isSome = (d.folder? (dir ++ [file])).isSome

/-- Putting a file with another name somewhere, as a save does, changes no backup. -/
theorem sameBackups_setFile {s : Storage} {name file : String} {d : Disk} {path : Path}
    (h : ¬IsMarked name file) (data : ByteArray) :
    s.SameBackups name d (d.setFile path file data) := by
  have hsame := Disk.sameFolders_setFile d path file data
  refine ⟨fun dir => Disk.locate_of_sameFolders hsame, fun dir _ => hsame.folders dir, ?_,
    fun dir _ other _ => hsame.folders _⟩
  intro dir _ other hother
  apply Disk.file?_setFile_of_ne
  rintro rfl
  exact h hother

theorem SameBackups.refl (s : Storage) (name : String) (d : Disk) : s.SameBackups name d d :=
  ⟨fun _ => id, fun _ _ => rfl, fun _ _ _ _ => rfl, fun _ _ _ _ => rfl⟩

/-! ## The backups of a folder -/

/-- A folder has just some backups of a save-file, and each is found under its name. -/
structure Holds (s : Storage) (name : String) (dir : Path) (d : Disk) (held : List BackupEntry) :
    Prop where
  base : d.locate s.base = .ok (.folder dir)
  there : (d.folder? dir).isSome = true
  mem_iff : ∀ e, e ∈ held ↔
    (d.file? dir e.file).isSome = true ∧ BackupEntry.ofFile? name e.file = some e
  placed : ∀ e ∈ held, s.locate d e.file = .ok (.entry dir e.file)
  nodup : held.Nodup

theorem home_of_base {s : Storage} {d : Disk} {dir : Path}
    (h : d.locate s.base = .ok (.folder dir)) : s.home d = .ok dir := by
  unfold home
  rw [Disk.isEmpty_of_locate h, h]
  rfl

namespace Holds

variable {s : Storage} {name : String} {dir : Path} {d d' : Disk} {held : List BackupEntry}

/-- A backup is found by its name if it is one of those in the folder. -/
theorem contains_iff (h : s.Holds name dir d held) (hn : '/' ∉ name.toList) {e : BackupEntry}
    (he : BackupEntry.ofFile? name e.file = some e) :
    s.contains d e.file = true ↔ e ∈ held := by
  have hentry : IsEntryName e.file := (BackupEntry.ofFile?_eq_some he).2.2.isEntryName hn
  constructor
  · intro hc
    rw [h.mem_iff]
    unfold contains Disk.isFile at hc
    split at hc
    · next path file hl =>
      obtain rfl := locate_entry hentry hl
      obtain ⟨hhome, -⟩ := home_of_locate_entry hentry hl
      rw [home_of_base h.base] at hhome
      cases hhome
      exact ⟨hc, he⟩
    · cases hc
  · intro hmem
    unfold contains Disk.isFile
    rw [h.placed e hmem]
    exact ((h.mem_iff e).1 hmem).1

/-- The backups are among the names of the files. -/
theorem mem_iff_mem_keys (h : s.Holds name dir d held) {f : Folder} (hf : d.folder? dir = some f)
    (e : BackupEntry) :
    e ∈ held ↔ e.file ∈ f.keys ∧ BackupEntry.ofFile? name e.file = some e := by
  rw [h.mem_iff, NameMap.mem_keys_iff]
  unfold Disk.file?
  rw [hf]
  rfl

theorem bare (hd : d.locate s.base = .ok (.folder dir)) (hf : (d.folder? dir).isSome = true)
    (hbare : ∀ file, (d.file? dir file).isSome = true → BackupEntry.ofFile? name file = none) :
    s.Holds name dir d [] := by
  refine ⟨hd, hf, ?_, nofun, List.nodup_nil⟩
  intro e
  constructor
  · nofun
  · rintro ⟨hfile, he⟩
    rw [hbare e.file hfile] at he
    cases he

theorem same (h : s.Holds name dir d held) (hn : '/' ∉ name.toList)
    (hsame : s.SameBackups name d d') : s.Holds name dir d' held := by
  refine ⟨hsame.base dir h.base, (hsame.there dir h.base).trans h.there, ?_, ?_, h.nodup⟩
  · intro e
    rw [h.mem_iff]
    refine and_congr_left fun he => ?_
    rw [hsame.files dir h.base e.file (BackupEntry.ofFile?_eq_some he).2.2]
  · intro e he
    have hmarked : IsMarked name e.file :=
      (BackupEntry.ofFile?_eq_some ((h.mem_iff e).1 he).2).2.2
    have hl := h.placed e he
    rw [locate_eq s d (hmarked.isEntryName hn), home_of_base h.base] at hl
    rw [locate_eq s d' (hmarked.isEntryName hn), home_of_base (hsame.base dir h.base), ← hl]
    show ite _ _ (d'.walk dir [e.file]) = ite _ _ (d.walk dir [e.file])
    rw [Disk.walk_singleton d dir (hmarked.isEntryName hn),
      Disk.walk_singleton d' dir (hmarked.isEntryName hn),
      hsame.folders dir h.base e.file hmarked]

/-- A backup that was not there is put into the folder. -/
theorem put (h : s.Holds name dir d held) {e : BackupEntry}
    (he : BackupEntry.ofFile? name e.file = some e)
    (hl : s.locate d e.file = .ok (.entry dir e.file)) (hnew : e ∉ held) (data : ByteArray) :
    s.Holds name dir (d.setFile dir e.file data) (held ++ [e]) := by
  have hsame := Disk.sameFolders_setFile d dir e.file data
  refine ⟨Disk.locate_of_sameFolders hsame h.base, (hsame.folders dir).trans h.there, ?_, ?_, ?_⟩
  · intro b
    rw [List.mem_append, List.mem_singleton, h.mem_iff]
    by_cases hfile : e.file = b.file
    · -- a name is read in one way
      have hread : BackupEntry.ofFile? name b.file = some b ↔ b = e := by
        rw [← hfile, he, Option.some.injEq]
        exact eq_comm
      rw [← hfile, Disk.file?_setFile_self h.there, hfile, hread]
      simp
    · have hne : b ≠ e := fun heq => hfile (heq ▸ rfl)
      rw [Disk.file?_setFile_of_ne hfile]
      simp [hne]
  · intro b hb
    refine Disk.locateIn_of_sameFolders hsame ?_
    rcases List.mem_append.1 hb with hb | hb
    · exact h.placed b hb
    · cases List.mem_singleton.1 hb
      exact hl
  · rw [List.nodup_append]
    refine ⟨h.nodup, by simp, ?_⟩
    rintro a ha b hb rfl
    cases List.mem_singleton.1 hb
    exact hnew ha

/-- Of files that are taken out the backups are gone. -/
theorem drop (h : s.Holds name dir d held) (names : List String) :
    s.Holds name dir (d.dropFiles dir names)
      (held.filter fun e => s.contains (d.dropFiles dir names) e.file) := by
  have hsame := Disk.sameFolders_dropFiles d dir names
  have hplaced : ∀ e ∈ held, s.locate (d.dropFiles dir names) e.file = .ok (.entry dir e.file) :=
    fun e he => Disk.locateIn_of_sameFolders hsame (h.placed e he)
  refine ⟨Disk.locate_of_sameFolders hsame h.base, (hsame.folders dir).trans h.there, ?_,
    fun e he => hplaced e (List.mem_filter.1 he).1, h.nodup.filter _⟩
  intro e
  rw [List.mem_filter]
  constructor
  · rintro ⟨hmem, hc⟩
    unfold contains Disk.isFile at hc
    rw [hplaced e hmem] at hc
    exact ⟨hc, ((h.mem_iff e).1 hmem).2⟩
  · rintro ⟨hfile, he⟩
    have hkept : (d.file? dir e.file).isSome = true := by
      rw [Disk.file?_dropFiles] at hfile
      split at hfile
      · cases hfile
      · exact hfile
    have hmem : e ∈ held := (h.mem_iff e).2 ⟨hkept, he⟩
    refine ⟨hmem, ?_⟩
    unfold contains Disk.isFile
    rw [hplaced e hmem]
    exact hfile

/-- When the first of the backups in some order are taken out, the others of them are left. -/
theorem filter_dropFiles (h : s.Holds name dir d held) {row : List BackupEntry}
    (hrow : row.Perm held) (n : Nat) :
    row.filter (fun e => s.contains (d.dropFiles dir ((row.take n).map BackupEntry.file)) e.file)
      = row.drop n := by
  have hnodup : row.Nodup := hrow.nodup_iff.2 h.nodup
  have hcontains : ∀ e ∈ row,
      s.contains (d.dropFiles dir ((row.take n).map BackupEntry.file)) e.file
        = decide (e ∉ row.take n) := by
    intro e he
    have hmem : e ∈ held := hrow.mem_iff.1 he
    have hl := Disk.locateIn_of_sameFolders
      (Disk.sameFolders_dropFiles d dir ((row.take n).map BackupEntry.file)) (h.placed e hmem)
    obtain ⟨hfile, hread⟩ := (h.mem_iff e).1 hmem
    -- the name of a backup is that of no other one
    have hnamed : e.file ∈ (row.take n).map BackupEntry.file ↔ e ∈ row.take n := by
      refine ⟨fun hin => ?_, List.mem_map_of_mem⟩
      obtain ⟨b, hb, hfile⟩ := List.mem_map.1 hin
      have hread' := ((h.mem_iff b).1 (hrow.mem_iff.1 (List.mem_of_mem_take hb))).2
      rw [hfile, hread] at hread'
      cases hread'
      exact hb
    unfold contains Disk.isFile
    rw [show s.locate _ e.file = .ok (.entry dir e.file) from hl]
    simp only [Disk.file?_dropFiles, hnamed]
    by_cases hin : e ∈ row.take n
    · simp [hin]
    · simp [hin, hfile]
  have hsplit : row.take n ++ row.drop n = row := List.take_append_drop n row
  have hapart : ∀ e ∈ row.drop n, e ∉ row.take n := by
    intro e he he'
    rw [← hsplit, List.nodup_append] at hnodup
    exact hnodup.2.2 e he' e he rfl
  calc
    row.filter _ = row.filter fun e => decide (e ∉ row.take n) := List.filter_congr hcontains
    _ = (row.take n ++ row.drop n).filter fun e => decide (e ∉ row.take n) := by rw [hsplit]
    _ = row.drop n := by
      rw [List.filter_append, List.filter_eq_nil_iff.2, List.nil_append, List.filter_eq_self.2]
      · exact fun e he => decide_eq_true (hapart e he)
      · exact fun e he hno => of_decide_eq_true hno he

end Holds

end Storage

end Keepsake
