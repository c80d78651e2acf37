import Keepsake.Proofs.Prune
/-!
# What is listed and what is deleted

The timestamped backups in a listing are those that the folder has, by rank. So a row of strictly
ascending rank that has just these backups is the listing (`timestampedOf_eq`).

Deleting goes along a row of backups and stops at the first call that is struck: what is gone then
is a front of the row (`deleteBackups_run`), and over a calm storage it is the whole row.
-/

namespace Keepsake

variable {ω : Type}

/-! ## Listings -/

namespace BackupEntry

variable {name : String} {files : List String}

theorem ofFile?_eq_some {file : String} {e : BackupEntry} (h : ofFile? name file = some e) :
    e.file = file ∧ e.isTimestamped = true ∧ IsMarked name file := by
  unfold ofFile? at h
  split at h
  · cases h
  · obtain ⟨r, hr, rfl⟩ := Option.map_eq_some_iff.1 h
    exact ⟨rfl, rfl, isMarked_of_readBackup hr⟩

/-- The timestamped backups of a listing are the files that are read as such. -/
theorem mem_timestampedOf {e : BackupEntry} :
    e ∈ timestampedOf name files ↔ e.file ∈ files ∧ ofFile? name e.file = some e := by
  unfold timestampedOf
  rw [List.mem_mergeSort, List.mem_filterMap]
  constructor
  · rintro ⟨file, hfile, he⟩
    obtain ⟨rfl, -⟩ := ofFile?_eq_some he
    exact ⟨hfile, he⟩
  · rintro ⟨hfile, he⟩
    exact ⟨e.file, hfile, he⟩

theorem notAfter_trans (a b c : BackupEntry) (hab : notAfter a b = true)
    (hbc : notAfter b c = true) : notAfter a c = true :=
  decide_eq_true (Nat.le_trans (of_decide_eq_true hab) (of_decide_eq_true hbc))

theorem notAfter_total (a b : BackupEntry) : (notAfter a b || notAfter b a) = true := by
  simp only [notAfter, Bool.or_eq_true, decide_eq_true_eq]
  exact Nat.le_total a.rank b.rank

theorem pairwise_timestampedOf (name : String) (files : List String) :
    (timestampedOf name files).Pairwise fun a b => a.rank ≤ b.rank := by
  have hsorted : (timestampedOf name files).Pairwise fun a b => notAfter a b = true :=
    List.pairwise_mergeSort notAfter_trans notAfter_total _
  exact hsorted.imp of_decide_eq_true

theorem nodup_timestampedOf (hf : files.Nodup) : (timestampedOf name files).Nodup := by
  unfold timestampedOf
  rw [(List.mergeSort_perm _ _).nodup_iff]
  refine List.Pairwise.filterMap _ ?_ hf
  rintro file file' hne e he e' he' rfl
  exact hne ((ofFile?_eq_some he).1.symm.trans (ofFile?_eq_some he').1)

/-- A row with the backups of a folder is the listing up to their order. -/
theorem timestampedOf_perm (hf : files.Nodup) {row : List BackupEntry} (hr : row.Nodup)
    (hmem : ∀ e, e ∈ row ↔ e.file ∈ files ∧ ofFile? name e.file = some e) :
    (timestampedOf name files).Perm row :=
  (List.perm_ext_iff_of_nodup (nodup_timestampedOf hf) hr).2 fun e =>
    mem_timestampedOf.trans (hmem e).symm

/-- A row with the backups of a folder that ascends strictly is the listing. -/
theorem timestampedOf_eq (hf : files.Nodup) {row : List BackupEntry}
    (hr : row.Pairwise fun a b => a.rank < b.rank)
    (hmem : ∀ e, e ∈ row ↔ e.file ∈ files ∧ ofFile? name e.file = some e) :
    timestampedOf name files = row := by
  have hdifferent : row.Pairwise fun a b => a.rank ≠ b.rank := hr.imp Nat.ne_of_lt
  have hnodup : row.Nodup := hdifferent.imp fun hne heq => hne (congrArg rank heq)
  have hperm := timestampedOf_perm hf hnodup hmem
  -- the rank tells the members of the row apart, so only one order of them is by rank
  have hrank : ∀ a ∈ row, ∀ b ∈ row, a.rank = b.rank → a = b :=
    List.Pairwise.forall_of_forall_of_flip (fun _ _ _ => rfl)
      (hr.imp fun hlt heq => absurd heq (Nat.ne_of_lt hlt))
      (hr.imp fun hlt heq => absurd heq (Nat.ne_of_gt hlt))
  refine hperm.eq_of_pairwise ?_ (pairwise_timestampedOf name files) (hr.imp Nat.le_of_lt)
  intro a b ha hb hab hba
  exact hrank a (hperm.mem_iff.1 ha) b hb (Nat.le_antisymm hab hba)

/-- The rotating backup is the only one of a listing that is not timestamped. -/
theorem filter_isTimestamped_listOf (name : String) (files : List String) :
    (listOf name files).filter isTimestamped = timestampedOf name files := by
  have hstamped : ∀ e ∈ timestampedOf name files, e.isTimestamped = true := fun e he =>
    (ofFile?_eq_some (mem_timestampedOf.1 he).2).2.1
  unfold listOf
  rw [List.filter_append, List.filter_eq_self.2 hstamped]
  split <;> simp [isTimestamped]

end BackupEntry

/-! ## Deleted files -/

namespace Disk

/-- Takes files out of the folder at a path, one after the other. -/
def dropFiles (d : Disk) (dir : Path) (names : List String) : Disk :=
  names.foldl (fun d name => d.dropFile dir name) d

theorem sameFolders_dropFiles (d : Disk) (dir : Path) (names : List String) :
    SameFolders d (d.dropFiles dir names) := by
  induction names generalizing d with
  | nil => exact ⟨rfl, fun _ => rfl⟩
  | cons name rest ih =>
    exact (sameFolders_dropFile d dir name).trans (ih (d.dropFile dir name))

/-- What was taken out is gone, and the other files are there. -/
theorem file?_dropFiles (d : Disk) (dir : Path) (names : List String) (name : String) :
    (d.dropFiles dir names).file? dir name
      = if name ∈ names then none else d.file? dir name := by
  induction names generalizing d with
  | nil => simp [dropFiles]
  | cons first rest ih =>
    have hstep := ih (d.dropFile dir first)
    show ((d.dropFile dir first).dropFiles dir rest).file? dir name = _
    rw [hstep]
    by_cases hfirst : first = name
    · subst hfirst
      simp [file?_dropFile_self]
    · rw [file?_dropFile_of_ne hfirst]
      simp [Ne.symm hfirst]

end Disk

namespace Storage

variable {s : Storage} {w : World ω} {dir : Path} {name : String}

/-- A file that is an entry of a folder is deleted, unless a fault strikes the call. -/
theorem delete_run (hl : s.locate w.disk name = .ok (.entry dir name)) :
    s.delete name w = (.ok (), { w.called with disk := w.disk.dropFile dir name }) ∨
      ¬s.Calm w ∧ (s.delete name w).1.IsStop ∧ (s.delete name w).2 = w.called := by
  have hdelete : (Act.onDisk fun d => orFail ("Failed to delete " ++ s.pathOf name)
      (d.delete (s.locate d name))) w.called
        = (.ok (), { w.called with disk := w.disk.dropFile dir name }) := by
    simp only [Act.onDisk, World.called_disk, hl]
    rfl
  rcases call_cases s .delete _ w with h | hstop
  · exact Or.inl (h.trans hdelete)
  · exact Or.inr hstop

/-- The files of a folder are listed, unless a fault strikes the call. -/
theorem list_run {f : Folder} (hl : w.disk.locate s.base = .ok (.folder dir))
    (hf : w.disk.folder? dir = some f) :
    s.list w = (.ok f.keys, w.called) ∨
      ¬s.Calm w ∧ (s.list w).1.IsStop ∧ (s.list w).2 = w.called := by
  have hkeys : w.disk.list (w.disk.locate s.base) = .ok f.keys := by
    unfold Disk.list
    rw [hl]
    simp only [hf]
  rcases call_cases s .list _ w with h | hstop
  · left
    unfold list
    rw [h, Act.get_bind, World.called_disk, hkeys]
    rfl
  · exact Or.inr hstop

end Storage

/-! ## Pruning -/

variable {s : Storage} {w : World ω} {dir : Path}

/-- Backups are deleted one after the other, up to a call that is struck. -/
theorem deleteBackups_run {row : List BackupEntry}
    (hl : ∀ e ∈ row, s.locate w.disk e.file = .ok (.entry dir e.file)) :
    ∃ n ≤ row.length,
      (deleteBackups s row w).2.disk
        = w.disk.dropFiles dir ((row.take n).map BackupEntry.file) ∧
      w.SameSetting (deleteBackups s row w).2 ∧
      (n = row.length ∧ (deleteBackups s row w).1 = .ok (row.map BackupEntry.file) ∨
        ¬s.Calm w ∧ (deleteBackups s row w).1.IsStop) := by
  induction row generalizing w with
  | nil => exact ⟨0, Nat.le_refl 0, rfl, .refl w, Or.inl ⟨rfl, rfl⟩⟩
  | cons e rest ih =>
    rw [List.forall_mem_cons] at hl
    unfold deleteBackups
    rcases Storage.delete_run hl.1 with h | ⟨hcalm, hstop, hworld⟩
    · -- the first one is gone, and the rest of the row is where it was
      rw [Act.bind_of_ok h]
      obtain ⟨w₁, htell, hlogged⟩ := Act.tell_onlyLogged (ε := Failure) .backup .debug
        "pruned backup" [("file", .text e.file)]
        { w.called with disk := w.disk.dropFile dir e.file }
      rw [Act.bind_of_ok htell]
      have hdisk : w₁.disk = w.disk.dropFile dir e.file := hlogged.alike.disk
      have hsetting : w.SameSetting w₁ :=
        (w.alike_called.toSameButDisk.trans (w.called.sameButDisk_disk _)).toSameSetting.trans
          hlogged.alike.toSameSetting
      have hrest : ∀ b ∈ rest, s.locate w₁.disk b.file = .ok (.entry dir b.file) := by
        intro b hb
        rw [hdisk]
        exact Disk.locateIn_of_sameFolders (Disk.sameFolders_dropFile _ _ _) (hl.2 b hb)
      obtain ⟨n, hn, hgone, hkept, hend⟩ := ih hrest
      refine ⟨n + 1, Nat.succ_le_succ hn, ?_, ?_, ?_⟩
      · rw [Act.bind_pure_snd, hgone, hdisk]
        rfl
      · rw [Act.bind_pure_snd]
        exact hsetting.trans hkept
      · rcases hend with ⟨rfl, hok⟩ | ⟨hcalm, hstop⟩
        · refine Or.inl ⟨rfl, ?_⟩
          rw [Act.bind_of_ok (Prod.ext hok rfl)]
          rfl
        · refine Or.inr ⟨fun hw => hcalm (hw.of_sameSetting hsetting), ?_⟩
          exact (Act.bind_of_stop _ hstop).1
    · obtain ⟨hstop', hworld'⟩ := Act.bind_of_stop (fun _ => do
        Act.tell .backup .debug "pruned backup" [("file", .text e.file)]
        let names ← deleteBackups s rest
        pure (e.file :: names)) hstop
      refine ⟨0, Nat.zero_le _, ?_, ?_, Or.inr ⟨hcalm, hstop'⟩⟩
      · rw [hworld', hworld]
        rfl
      · rw [hworld', hworld]
        exact w.alike_called.toSameSetting

/-- What a folder has as timestamped backups is listed, unless a fault strikes the call. -/
theorem listBackups_run {name : String} {f : Folder}
    (hd : w.disk.locate s.base = .ok (.folder dir)) (hf : w.disk.folder? dir = some f) :
    listBackups s name w = (.ok (BackupEntry.listOf name f.keys), w.called) ∨
      ¬s.Calm w ∧ (listBackups s name w).1.IsStop ∧ (listBackups s name w).2 = w.called := by
  unfold listBackups
  rcases Storage.list_run hd hf with h | ⟨hcalm, hstop, hworld⟩
  · left
    rw [Act.bind_of_ok h]
    rfl
  · obtain ⟨hstop', hworld'⟩ :=
      Act.bind_of_stop (fun files => Pure.pure (BackupEntry.listOf name files)) hstop
    exact Or.inr ⟨hcalm, hstop', hworld'.trans hworld⟩

/--
Pruning deletes a front of the backups that are too many: all of them, unless a call is struck.
-/
theorem pruneBackups_run {name : String} {f : Folder} (keep : Nat)
    (hd : w.disk.locate s.base = .ok (.folder dir)) (hf : w.disk.folder? dir = some f)
    (hl : ∀ e ∈ BackupEntry.timestampedOf name f.keys,
      s.locate w.disk e.file = .ok (.entry dir e.file)) :
    ∃ n ≤ (BackupEntry.timestampedOf name f.keys).length - keep,
      (pruneBackups s name keep w).2.disk = w.disk.dropFiles dir
        (((BackupEntry.timestampedOf name f.keys).take n).map BackupEntry.file) ∧
      w.SameSetting (pruneBackups s name keep w).2 ∧
      (n = (BackupEntry.timestampedOf name f.keys).length - keep ∧
          (pruneBackups s name keep w).1
            = .ok (((BackupEntry.timestampedOf name f.keys).take n).map BackupEntry.file) ∨
        ¬s.Calm w ∧ (pruneBackups s name keep w).1.IsStop) := by
  unfold pruneBackups
  rcases listBackups_run hd hf with h | ⟨hcalm, hstop, hworld⟩
  · rw [Act.bind_of_ok h]
    simp only [BackupEntry.filter_isTimestamped_listOf]
    generalize BackupEntry.timestampedOf name f.keys = stamped at hl ⊢
    have htaken : ∀ e ∈ stamped.take (stamped.length - keep),
        s.locate w.called.disk e.file = .ok (.entry dir e.file) :=
      fun e he => hl e (List.mem_of_mem_take he)
    obtain ⟨n, hn, hgone, hkept, hend⟩ := deleteBackups_run htaken
    have hlength : (stamped.take (stamped.length - keep)).length = stamped.length - keep := by
      rw [List.length_take]
      omega
    rw [hlength] at hn hend
    rw [List.take_take, Nat.min_eq_left hn] at hgone
    refine ⟨n, hn, hgone, w.alike_called.toSameSetting.trans hkept, ?_⟩
    rcases hend with ⟨rfl, hok⟩ | ⟨hcalm, hstop⟩
    · exact Or.inl ⟨rfl, hok⟩
    · exact Or.inr ⟨fun hw => hcalm (hw.of_sameSetting w.alike_called.toSameSetting), hstop⟩
  · obtain ⟨hstop', hworld'⟩ := Act.bind_of_stop (fun entries =>
      deleteBackups s ((entries.filter BackupEntry.isTimestamped).take
        ((entries.filter BackupEntry.isTimestamped).length - keep))) hstop
    refine ⟨0, Nat.zero_le _, ?_, ?_, Or.inr ⟨hcalm, hstop'⟩⟩
    · rw [hworld', hworld]
      rfl
    · rw [hworld', hworld]
      exact w.alike_called.toSameSetting

end Keepsake
