import Keepsake.Proofs.BackupListing
/-!
# Pruning deletes a front of the listing

Pruning asks for the listing and deletes from its front, one call for each backup. What strikes a
call is told by its number (`Storage.faultAt`), so a pruning that stops has deleted just the backups
in front of the first call that is struck (`deleteBackups_front`).

Backups of one moment and counter are listed by the names of their files, since listings are sorted
stably and the names of a folder ascend. So it is determined in which order backups are listed
(`BackupEntry.Ahead`), and what is listed when the first ones are gone is the rest of the listing.
That is what pruning again starts from.
-/

namespace Keepsake

variable {ω : Type}

/-! ## The order of a listing -/

namespace BackupEntry

/-- Whether a backup is listed ahead of another one of its save-file. -/
def Ahead (a b : BackupEntry) : Prop := a.rank < b.rank ∨ a.rank = b.rank ∧ a.file < b.file

theorem Ahead.asymm {a b : BackupEntry} (h : a.Ahead b) (h' : b.Ahead a) : False := by
  rcases h with hlt | ⟨heq, hfile⟩ <;> rcases h' with hlt' | ⟨heq', hfile'⟩
  · omega
  · omega
  · omega
  · exact String.lt_irrefl _ (String.lt_trans hfile hfile')

variable {name : String} {files : List String}

/-- Backups of one rank are listed in the order of their files. -/
theorem filter_rank_timestampedOf (name : String) (files : List String) (r : Nat) :
    (timestampedOf name files).filter (fun e => e.rank = r)
      = (files.filterMap (ofFile? name)).filter fun e => e.rank = r := by
  have hperm : ((timestampedOf name files).filter fun e => e.rank = r).Perm
      ((files.filterMap (ofFile? name)).filter fun e => e.rank = r) :=
    (List.mergeSort_perm _ _).filter _
  have hequal : ((files.filterMap (ofFile? name)).filter fun e => e.rank = r).Pairwise
      fun a b => notAfter a b = true := by
    refine List.pairwise_of_forall_mem_list fun a ha b hb => ?_
    have ha := of_decide_eq_true (List.mem_filter.1 ha).2
    have hb := of_decide_eq_true (List.mem_filter.1 hb).2
    exact decide_eq_true (by omega)
  have hsub : ((files.filterMap (ofFile? name)).filter fun e => e.rank = r).Sublist
      (timestampedOf name files) :=
    List.sublist_mergeSort notAfter_trans notAfter_total hequal List.filter_sublist
  have hsub' := hsub.filter fun e => e.rank = r
  rw [List.filter_filter] at hsub'
  simp only [Bool.and_self] at hsub'
  exact (hsub'.eq_of_length hperm.length_eq.symm).symm

theorem ahead_timestampedOf (hf : files.Pairwise (· < ·)) :
    (timestampedOf name files).Pairwise Ahead := by
  have hfiles : (files.filterMap (ofFile? name)).Pairwise fun a b => a.file < b.file := by
    refine List.Pairwise.filterMap _ ?_ hf
    intro file file' hlt e he e' he'
    rwa [(ofFile?_eq_some he).1, (ofFile?_eq_some he').1]
  rw [List.pairwise_iff_forall_sublist]
  intro a b hab
  have hrank := List.pairwise_iff_forall_sublist.1 (pairwise_timestampedOf name files) hab
  rcases Nat.lt_or_eq_of_le hrank with hlt | heq
  · exact Or.inl hlt
  · refine Or.inr ⟨heq, ?_⟩
    have hpair := hab.filter fun e => e.rank = b.rank
    rw [filter_rank_timestampedOf] at hpair
    simp only [heq, decide_true, List.filter_cons_of_pos, List.filter_nil] at hpair
    exact List.pairwise_iff_forall_sublist.1 hfiles (hpair.trans List.filter_sublist)

/-- A row with the backups of a folder in their order is the listing. -/
theorem timestampedOf_eq_of_ahead (hf : files.Pairwise (· < ·)) {row : List BackupEntry}
    (hr : row.Pairwise Ahead) (hnodup : row.Nodup)
    (hmem : ∀ e, e ∈ row ↔ e.file ∈ files ∧ ofFile? name e.file = some e) :
    timestampedOf name files = row := by
  have hperm := timestampedOf_perm (hf.imp String.ne_of_lt) hnodup hmem
  refine hperm.eq_of_pairwise ?_ (ahead_timestampedOf hf) hr
  exact fun a b _ _ hab hba => (hab.asymm hba).elim

end BackupEntry

/-! ## Struck calls -/

/-- What a call comes to that is struck and has no effect. -/
def Fault.outcome {α : Type} : Fault → Outcome Failure α
  | .fail f | .failStaged f => .fail f
  | .panic p | .panicStaged p => .panic p

namespace Storage

/-- What strikes a call of a storage, if there are `n` others before it. -/
def faultAt (s : Storage) (w : World ω) (n : Nat) (c : Call) : Option Fault :=
  if s.exposed then w.plan (w.calls + n) c else none

theorem faultAt_of_next {s : Storage} {w w' : World ω} (hcalls : w'.calls = w.calls + 1)
    (hplan : w'.plan = w.plan) (n : Nat) (c : Call) :
    s.faultAt w' n c = s.faultAt w (n + 1) c := by
  unfold faultAt
  rw [hcalls, hplan, Nat.add_assoc, Nat.add_comm 1 n]

theorem call_of_none {α : Type} {s : Storage} {c : Call} {w : World ω}
    (h : s.faultAt w 0 c = none) (x : Act ω Failure α) :
    s.call c x w = x w.called := by
  unfold faultAt at h
  simp only [call, callInSteps, Nat.add_zero] at h ⊢
  rw [h, Act.ofOutcome_ok_bind]

theorem call_of_some {α : Type} {s : Storage} {c : Call} {w : World ω} {fault : Fault}
    (h : s.faultAt w 0 c = some fault) (x : Act ω Failure α) :
    s.call c x w = (fault.outcome, w.called) := by
  unfold faultAt at h
  simp only [call, callInSteps, Nat.add_zero] at h ⊢
  rw [h]
  cases fault <;> rfl

/-- A spared call deletes a file that is an entry of a folder. -/
theorem delete_of_none {s : Storage} {w : World ω} {dir : Path} {file : String}
    (h : s.faultAt w 0 .delete = none) (hl : s.locate w.disk file = .ok (.entry dir file)) :
    s.delete file w = (.ok (), { w.called with disk := w.disk.dropFile dir file }) := by
  unfold delete
  rw [call_of_none h]
  simp only [Act.onDisk, World.called_disk, hl]
  rfl

end Storage

/-- Backups are deleted one after the other, until a call is struck, which tells the outcome. -/
theorem deleteBackups_front {s : Storage} {w : World ω} {dir : Path} {row : List BackupEntry}
    (hl : ∀ e ∈ row, s.locate w.disk e.file = .ok (.entry dir e.file)) :
    ∃ n ≤ row.length, (∀ i < n, s.faultAt w i .delete = none) ∧
      (deleteBackups s row w).2.disk
        = w.disk.dropFiles dir ((row.take n).map BackupEntry.file) ∧
      (n = row.length ∧ (deleteBackups s row w).1 = .ok (row.map BackupEntry.file) ∨
        n < row.length ∧ ∃ fault, s.faultAt w n .delete = some fault ∧
          (deleteBackups s row w).1 = fault.outcome) := by
  induction row generalizing w with
  | nil => exact ⟨0, Nat.le_refl 0, nofun, rfl, Or.inl ⟨rfl, rfl⟩⟩
  | cons e rest ih =>
    rw [List.forall_mem_cons] at hl
    unfold deleteBackups
    cases hfault : s.faultAt w 0 .delete with
    | none =>
      -- the first one is gone, and the rest of the row is where it was
      rw [Act.bind_of_ok (Storage.delete_of_none hfault hl.1)]
      obtain ⟨w₁, htell, log, hw₁⟩ := Act.tell_onlyLogged (ε := Failure) .backup .debug
        "pruned backup" [("file", .text e.file)]
        { w.called with disk := w.disk.dropFile dir e.file }
      rw [Act.bind_of_ok htell]
      have hdisk : w₁.disk = w.disk.dropFile dir e.file := congrArg World.disk hw₁
      have hcalls : w₁.calls = w.calls + 1 := congrArg World.calls hw₁
      have hplan : w₁.plan = w.plan := by rw [hw₁]; rfl
      have hnext : ∀ i, s.faultAt w₁ i .delete = s.faultAt w (i + 1) .delete := fun i =>
        Storage.faultAt_of_next hcalls hplan i .delete
      have hrest : ∀ b ∈ rest, s.locate w₁.disk b.file = .ok (.entry dir b.file) := by
        intro b hb
        rw [hdisk]
        exact Disk.locateIn_of_sameFolders (Disk.sameFolders_dropFile _ _ _) (hl.2 b hb)
      obtain ⟨n, hn, hspared, hgone, hend⟩ := ih hrest
      refine ⟨n + 1, Nat.succ_le_succ hn, ?_, ?_, ?_⟩
      · rintro (_ | i) hi
        · exact hfault
        · rw [← hnext]
          exact hspared i (Nat.lt_of_succ_lt_succ hi)
      · rw [Act.bind_pure_snd, hgone, hdisk]
        rfl
      · rw [Act.bind_pure_apply]
        rcases hend with ⟨rfl, hok⟩ | ⟨hlt, fault, hstruck, hout⟩
        · exact Or.inl ⟨rfl, by rw [hok]; rfl⟩
        · refine Or.inr ⟨Nat.succ_lt_succ hlt, fault, ?_, ?_⟩
          · rw [← hnext]
            exact hstruck
          · rw [hout]
            cases fault <;> rfl
    | some fault =>
      refine ⟨0, Nat.zero_le _, nofun, ?_, Or.inr ⟨Nat.succ_pos _, fault, hfault, ?_⟩⟩
      all_goals
        rw [Act.bind_apply, Storage.delete, Storage.call_of_some hfault]
        cases fault <;> rfl

/-! ## Folders whose backups are listed -/

namespace Disk

theorem dropFiles_append (d : Disk) (dir : Path) (names names' : List String) :
    d.dropFiles dir (names ++ names') = (d.dropFiles dir names).dropFiles dir names' :=
  List.foldl_append

/-- Just the files that were taken out are gone, from that folder only. -/
theorem file?_dropFiles_at (d : Disk) (dir path : Path) (names : List String) (file : String) :
    (d.dropFiles dir names).file? path file
      = if path.text = dir.text ∧ file ∈ names then none else d.file? path file := by
  by_cases hpath : path.text = dir.text
  · have hsame : ∀ d' : Disk, d'.file? path file = d'.file? dir file := fun d' => by
      simp only [file?, folder?, hpath]
    rw [hsame, hsame, file?_dropFiles]
    simp [hpath]
  · have hother : ∀ (d' : Disk) (name : String),
        (d'.dropFile dir name).file? path file = d'.file? path file := by
      intro d' name
      unfold dropFile
      split
      · simp only [file?, folder?_setFolder, if_neg (Ne.symm hpath)]
      · rfl
    rw [if_neg fun h => hpath h.1]
    induction names generalizing d with
    | nil => rfl
    | cons name rest ih =>
      have hstep := ih (d.dropFile dir name)
      rw [hother] at hstep
      exact hstep

end Disk

namespace Storage

/--
As files are in a folder: each has a plain name that is not too long, and no folder beside it has
the same name.
-/
def FilesNamed (s : Storage) (d : Disk) : Prop :=
  ∀ dir f, d.locate s.base = .ok (.folder dir) → d.folder? dir = some f → ∀ file ∈ f.keys,
    Disk.isPlainName file = true ∧ file.utf8ByteSize ≤ Path.nameLimit ∧
      d.folder? (dir ++ [file]) = none

/-- A folder has just some backups of a save-file, and they are listed in this order. -/
structure Lists (s : Storage) (name : String) (dir : Path) (d : Disk) (row : List BackupEntry) :
    Prop extends Holds s name dir d row where
  ahead : row.Pairwise BackupEntry.Ahead

/-- Each backup in a folder has a file of its own. -/
theorem Holds.eq_of_file {s : Storage} {name : String} {dir : Path} {d : Disk}
    {held : List BackupEntry} (h : s.Holds name dir d held) {a b : BackupEntry} (ha : a ∈ held)
    (hb : b ∈ held) (hfile : a.file = b.file) : a = b := by
  have hread := ((h.mem_iff a).1 ha).2
  rw [hfile, ((h.mem_iff b).1 hb).2] at hread
  exact (Option.some.inj hread).symm

namespace Lists

variable {s : Storage} {name : String} {dir : Path} {d : Disk} {row : List BackupEntry}

theorem timestampedOf_eq (h : s.Lists name dir d row) {f : Folder} (hf : d.folder? dir = some f) :
    BackupEntry.timestampedOf name f.keys = row :=
  BackupEntry.timestampedOf_eq_of_ahead f.keys_ascending h.ahead h.nodup
    (h.toHolds.mem_iff_mem_keys hf)

/-- When the first backups are taken out, the rest of the row is listed. -/
theorem drop (h : s.Lists name dir d row) (n : Nat) :
    s.Lists name dir (d.dropFiles dir ((row.take n).map BackupEntry.file)) (row.drop n) := by
  have hholds := h.toHolds.drop ((row.take n).map BackupEntry.file)
  rw [h.toHolds.filter_dropFiles (List.Perm.refl row)] at hholds
  exact ⟨hholds, h.ahead.drop⟩

end Lists

/-- Where files are named as they are in folders, the listing has the backups in the folder. -/
theorem FilesNamed.lists {s : Storage} {d : Disk} (h : s.FilesNamed d) {dir : Path} {f : Folder}
    (hd : d.locate s.base = .ok (.folder dir)) (hf : d.folder? dir = some f) (name : String) :
    s.Lists name dir d (BackupEntry.timestampedOf name f.keys) := by
  have hmem : ∀ e, e ∈ BackupEntry.timestampedOf name f.keys ↔
      (d.file? dir e.file).isSome = true ∧ BackupEntry.ofFile? name e.file = some e := by
    intro e
    rw [BackupEntry.mem_timestampedOf, NameMap.mem_keys_iff, Disk.file?, hf]
    rfl
  refine ⟨⟨hd, by rw [hf]; rfl, hmem, ?_, ?_⟩, BackupEntry.ahead_timestampedOf f.keys_ascending⟩
  · intro e he
    obtain ⟨hplain, hlong, hno⟩ := h dir f hd hf e.file (BackupEntry.mem_timestampedOf.1 he).1
    exact Disk.locateIn_plain hplain (Disk.isEmpty_of_locate hd) hd hlong hno
  · exact BackupEntry.nodup_timestampedOf (f.keys_ascending.imp String.ne_of_lt)

end Storage

/-! ## Pruning -/

variable {s : Storage} {name : String} {dir : Path} {w : World ω} {row : List BackupEntry}

theorem listBackups_of_none (hlist : s.faultAt w 0 .list = none)
    (h : s.Lists name dir w.disk row) :
    ∃ entries, listBackups s name w = (.ok entries, w.called) ∧
      entries.filter BackupEntry.isTimestamped = row := by
  obtain ⟨f, hf⟩ := Option.isSome_iff_exists.1 h.there
  have hkeys : w.disk.list (w.disk.locate s.base) = .ok f.keys := by
    unfold Disk.list
    rw [h.base]
    simp only [hf]
  have hfiles : s.list w = (.ok f.keys, w.called) := by
    unfold Storage.list
    rw [Storage.call_of_none hlist, Act.get_bind, World.called_disk, hkeys]
    rfl
  refine ⟨BackupEntry.listOf name f.keys, ?_, ?_⟩
  · unfold listBackups
    rw [Act.bind_of_ok hfiles]
    rfl
  · rw [BackupEntry.filter_isTimestamped_listOf, h.timestampedOf_eq hf]

/-- A listing that answers was not struck. -/
theorem faultAt_of_listBackups {entries : List BackupEntry} {w' : World ω}
    (hlist : listBackups s name w = (.ok entries, w')) : s.faultAt w 0 .list = none := by
  obtain ⟨files, w₁, hfiles, -⟩ := Act.bind_eq_ok hlist
  cases hfault : s.faultAt w 0 .list with
  | none => rfl
  | some fault =>
    rw [Storage.list, Storage.call_of_some hfault] at hfiles
    cases fault <;> cases hfiles

/-- A listing that answers has the backups of a folder, in their order. -/
theorem exists_lists (h : s.FilesNamed w.disk) {entries : List BackupEntry} {w' : World ω}
    (hlist : listBackups s name w = (.ok entries, w')) :
    ∃ dir, s.Lists name dir w.disk (entries.filter BackupEntry.isTimestamped) := by
  obtain ⟨files, w₁, hfiles, hrest⟩ := Act.bind_eq_ok hlist
  cases hrest
  obtain ⟨dir, f, hd, hf, rfl⟩ := Storage.list_eq_ok hfiles
  rw [BackupEntry.filter_isTimestamped_listOf]
  exact ⟨dir, h.lists hd hf name⟩

/-- Without a listing nothing is deleted. -/
theorem pruneBackups_of_stop (keep : Nat) (h : (listBackups s name w).1.IsStop) :
    (pruneBackups s name keep w).1.IsStop ∧ (pruneBackups s name keep w).2.disk = w.disk := by
  unfold pruneBackups
  obtain ⟨hstop, hworld⟩ := Act.bind_of_stop (fun entries =>
    deleteBackups s ((entries.filter BackupEntry.isTimestamped).take
      ((entries.filter BackupEntry.isTimestamped).length - keep))) h
  refine ⟨hstop, (congrArg World.disk hworld).trans ?_⟩
  unfold listBackups
  rw [Act.bind_pure_snd]
  exact (s.list_alike w).disk

/-- Pruning deletes the backups in front that are too many, until a call is struck. -/
theorem pruneBackups_of_lists (h : s.Lists name dir w.disk row) (hlist : s.faultAt w 0 .list = none)
    (keep : Nat) :
    ∃ n ≤ row.length - keep, (∀ i < n, s.faultAt w (i + 1) .delete = none) ∧
      (pruneBackups s name keep w).2.disk
        = w.disk.dropFiles dir ((row.take n).map BackupEntry.file) ∧
      (n = row.length - keep ∧
          (pruneBackups s name keep w).1 = .ok ((row.take n).map BackupEntry.file) ∨
        n < row.length - keep ∧ ∃ fault, s.faultAt w (n + 1) .delete = some fault ∧
          (pruneBackups s name keep w).1 = fault.outcome) := by
  obtain ⟨entries, hentries, hrow⟩ := listBackups_of_none hlist h
  have hrun : pruneBackups s name keep w
      = deleteBackups s (row.take (row.length - keep)) w.called := by
    unfold pruneBackups
    rw [Act.bind_of_ok hentries, hrow]
  have hplaced : ∀ e ∈ row.take (row.length - keep),
      s.locate w.called.disk e.file = .ok (.entry dir e.file) :=
    fun e he => h.placed e (List.mem_of_mem_take he)
  obtain ⟨n, hn, hspared, hgone, hend⟩ := deleteBackups_front hplaced
  have hcalls : w.called.calls = w.calls + 1 := rfl
  have hnext : ∀ i, s.faultAt w.called i .delete = s.faultAt w (i + 1) .delete := fun i =>
    Storage.faultAt_of_next hcalls rfl i .delete
  have hlength : (row.take (row.length - keep)).length = row.length - keep := by
    rw [List.length_take]
    omega
  rw [hlength] at hn hend
  rw [List.take_take, Nat.min_eq_left hn] at hgone
  simp only [hnext] at hspared hend
  rw [hrun]
  refine ⟨n, hn, hspared, hgone, ?_⟩
  rcases hend with ⟨rfl, hok⟩ | hstruck
  · exact Or.inl ⟨rfl, hok⟩
  · exact Or.inr hstruck

/-- Pruning that answers has deleted all that were too many. -/
theorem pruneBackups_eq_ok (h : s.Lists name dir w.disk row) {keep : Nat} {names : List String}
    {w' : World ω} (hprune : pruneBackups s name keep w = (.ok names, w')) :
    names = (row.take (row.length - keep)).map BackupEntry.file ∧
      w'.disk = w.disk.dropFiles dir names := by
  obtain ⟨entries, w₁, hentries, -⟩ := Act.bind_eq_ok hprune
  obtain ⟨n, -, -, hgone, hend⟩ := pruneBackups_of_lists h (faultAt_of_listBackups hentries) keep
  rw [hprune] at hgone hend
  rcases hend with ⟨rfl, hok⟩ | ⟨-, fault, -, hout⟩
  · cases hok
    exact ⟨rfl, hgone⟩
  · cases fault <;> cases hout

/-! ## What is left -/

/--
What pruning leaves of a folder that lists a row of backups, when it has deleted the first `n`.
-/
structure Storage.FrontGone (s : Storage) (name : String) (dir : Path) (row : List BackupEntry)
    (n : Nat) (d d' : Disk) : Prop where
  folders : d.SameFolders d'
  /-- just these files are gone -/
  files : ∀ path file, d'.file? path file =
    if path.text = dir.text ∧ file ∈ (row.take n).map BackupEntry.file then none
    else d.file? path file
  /-- what is listed from now on is the rest of the row -/
  left : ∀ (ω : Type) (w w' : World ω) entries, w.disk = d' →
    listBackups s name w = (.ok entries, w') →
    entries.filter BackupEntry.isTimestamped = row.drop n
  /-- no backup that is left is older than one that is gone -/
  newer : ∀ a ∈ row, ∀ b ∈ row, (d'.file? dir a.file).isSome = true → d'.file? dir b.file = none →
    ¬a.Before b
  /-- whatever is no timestamped backup of the save-file is as it was -/
  others : ∀ path file, readBackup name file = none → d'.file? path file = d.file? path file
  canonical : ∀ path, d'.file? path (canonicalName name) = d.file? path (canonicalName name)
  rotating : ∀ path, d'.file? path (rotatingName name) = d.file? path (rotatingName name)

/-- Names that are not marked are not read as those of timestamped backups. -/
theorem readBackup_of_not_isMarked {file : String} (h : ¬IsMarked name file) :
    readBackup name file = none := by
  rw [Option.eq_none_iff_forall_ne_some]
  exact fun r hread => h (isMarked_of_readBackup hread)

theorem Storage.Lists.not_before {d : Disk} (h : s.Lists name dir d row) :
    row.Pairwise fun a b => ¬b.Before a := by
  obtain ⟨f, hf⟩ := Option.isSome_iff_exists.1 h.there
  rw [← h.timestampedOf_eq hf]
  exact BackupEntry.sorted_timestampedOf name f.keys

theorem Storage.Lists.frontGone {d : Disk} (h : s.Lists name dir d row) (n : Nat) :
    s.FrontGone name dir row n d (d.dropFiles dir ((row.take n).map BackupEntry.file)) := by
  have hfiles := Disk.file?_dropFiles_at d dir
  have hothers : ∀ path file, readBackup name file = none →
      (d.dropFiles dir ((row.take n).map BackupEntry.file)).file? path file
        = d.file? path file := by
    intro path file hno
    rw [hfiles, if_neg]
    rintro ⟨-, hmem⟩
    obtain ⟨e, he, rfl⟩ := List.mem_map.1 hmem
    obtain ⟨-, stamp, -, hread⟩ := BackupEntry.ofFile?_eq_some_iff.1
      ((h.mem_iff e).1 (List.mem_of_mem_take he)).2
    rw [hno] at hread
    cases hread
  refine ⟨Disk.sameFolders_dropFiles d dir _, fun path => hfiles path _, ?_, ?_, hothers,
    fun path => hothers path _ ?_, fun path => hothers path _ ?_⟩
  · intro ω w w' entries hw hlist
    have hdrop := h.drop n
    rw [← hw] at hdrop
    obtain ⟨entries', hentries', hrow⟩ :=
      listBackups_of_none (faultAt_of_listBackups hlist) hdrop
    rw [hlist] at hentries'
    cases hentries'
    exact hrow
  · intro a ha b hb hleft hgone
    have hsplit : (row.take n ++ row.drop n).Pairwise fun a b => ¬b.Before a := by
      rw [List.take_append_drop]
      exact h.not_before
    rw [hfiles] at hleft hgone
    have hb : b ∈ row.take n := by
      split at hgone
      · next hnamed =>
        obtain ⟨b', hb', hfile⟩ := List.mem_map.1 hnamed.2
        rwa [← h.toHolds.eq_of_file (List.mem_of_mem_take hb') hb hfile]
      · rw [Option.eq_none_iff_forall_ne_some] at hgone
        obtain ⟨data, hdata⟩ := Option.isSome_iff_exists.1 ((h.mem_iff b).1 hb).1
        exact absurd hdata (hgone data)
    have ha : a ∈ row.drop n := by
      rw [← List.take_append_drop n row, List.mem_append] at ha
      refine ha.resolve_left fun htaken => ?_
      rw [if_pos ⟨rfl, List.mem_map_of_mem htaken⟩] at hleft
      cases hleft
    exact (List.pairwise_append.1 hsplit).2.2 b hb a ha
  · exact readBackup_of_not_isMarked (not_isMarked_canonicalName name name)
  · exact readBackup_of_not_isMarked (not_isMarked_rotatingName name name)

/-! ## The front of the listing -/

/-- What pruning does where the timestamped backups of a save-file are listed as `row`. -/
structure PrunesFront (s : Storage) (name : String) (dir : Path) (w : World ω)
    (row : List BackupEntry) : Prop where
  /-- if no call is struck, the backups that are too many are gone and named in the answer -/
  whole : ∀ keep, (∀ i < row.length - keep, s.faultAt w (i + 1) .delete = none) →
    ∃ w', pruneBackups s name keep w
        = (.ok ((row.take (row.length - keep)).map BackupEntry.file), w') ∧
      s.FrontGone name dir row (row.length - keep) w.disk w'.disk ∧
      (row.drop (row.length - keep)).length = min row.length keep
  /-- if a call is struck, this is the outcome, and just the backups before it are gone -/
  struck : ∀ keep i fault, i < row.length - keep → (∀ j < i, s.faultAt w (j + 1) .delete = none) →
    s.faultAt w (i + 1) .delete = some fault →
    ∃ w', pruneBackups s name keep w = (fault.outcome, w') ∧
      s.FrontGone name dir row i w.disk w'.disk
  /-- pruning again deletes nothing if no fewer are to be kept -/
  again : ∀ keep keep' names w₁ (w₂ : World ω), pruneBackups s name keep w = (.ok names, w₁) →
    w₂.disk = w₁.disk → keep ≤ keep' →
    (pruneBackups s name keep' w₂).2.disk = w₁.disk ∧
      (s.faultAt w₂ 0 .list = none → (pruneBackups s name keep' w₂).1 = .ok [])
  /-- pruning twice comes to pruning once, to the smaller number -/
  twice : ∀ keep keep' names₁ names₂ names₃ w₁ (w₁' : World ω) w₂ (w' : World ω) w₃,
    pruneBackups s name keep w = (.ok names₁, w₁) → w₁'.disk = w₁.disk →
    pruneBackups s name keep' w₁' = (.ok names₂, w₂) → w'.disk = w.disk →
    pruneBackups s name (min keep keep') w' = (.ok names₃, w₃) →
    w₂.disk = w₃.disk ∧ names₁ ++ names₂ = names₃

theorem prunesFront_of_lists (h : s.Lists name dir w.disk row)
    (hlist : s.faultAt w 0 .list = none) : PrunesFront s name dir w row where
  whole keep hspared := by
    obtain ⟨n, hn, -, hgone, hend⟩ := pruneBackups_of_lists h hlist keep
    rcases hend with ⟨rfl, hok⟩ | ⟨hlt, fault, hstruck, -⟩
    · refine ⟨_, Prod.ext hok rfl, hgone ▸ h.frontGone _, ?_⟩
      rw [List.length_drop]
      omega
    · rw [hspared n hlt] at hstruck
      cases hstruck
  struck keep i fault hi hspared hstruck := by
    obtain ⟨n, hn, hspared', hgone, hend⟩ := pruneBackups_of_lists h hlist keep
    obtain rfl : n = i := by
      rcases Nat.lt_trichotomy n i with hlt | heq | hlt
      · rcases hend with ⟨rfl, -⟩ | ⟨-, fault', hstruck', -⟩
        · omega
        · rw [hspared n hlt] at hstruck'
          cases hstruck'
      · exact heq
      · rw [hspared' i hlt] at hstruck
        cases hstruck
    rcases hend with ⟨rfl, -⟩ | ⟨-, fault', hstruck', hout⟩
    · exact absurd hi (Nat.lt_irrefl _)
    · cases hstruck.symm.trans hstruck'
      exact ⟨_, Prod.ext hout rfl, hgone ▸ h.frontGone _⟩
  again keep keep' names w₁ w₂ hprune hw₂ hkeep := by
    obtain ⟨rfl, hgone⟩ := pruneBackups_eq_ok h hprune
    have hleft : s.Lists name dir w₂.disk (row.drop (row.length - keep)) := by
      rw [hw₂, hgone]
      exact h.drop _
    have hnone : (row.drop (row.length - keep)).length - keep' = 0 := by
      rw [List.length_drop]
      omega
    cases hfault : s.faultAt w₂ 0 .list with
    | none =>
      obtain ⟨n, hn, -, hkept, hend⟩ := pruneBackups_of_lists hleft hfault keep'
      rw [hnone] at hn hend
      obtain rfl : n = 0 := by omega
      refine ⟨hkept.trans hw₂, fun _ => ?_⟩
      rcases hend with ⟨-, hok⟩ | ⟨hlt, -⟩
      · exact hok
      · exact absurd hlt (Nat.lt_irrefl 0)
    | some fault =>
      refine ⟨(pruneBackups_of_stop keep' fun entries hentries => ?_).2.trans hw₂, nofun⟩
      have hspared := faultAt_of_listBackups (Prod.ext hentries rfl)
      rw [hfault] at hspared
      cases hspared
  twice keep keep' names₁ names₂ names₃ w₁ w₁' w₂ w' w₃ hfirst hw₁' hsecond hw' honce := by
    obtain ⟨rfl, hgone₁⟩ := pruneBackups_eq_ok h hfirst
    have hleft : s.Lists name dir w₁'.disk (row.drop (row.length - keep)) := by
      rw [hw₁', hgone₁]
      exact h.drop _
    obtain ⟨rfl, hgone₂⟩ := pruneBackups_eq_ok hleft hsecond
    obtain ⟨rfl, hgone₃⟩ := pruneBackups_eq_ok (hw' ▸ h) honce
    -- the front of the row, and then the front of what is left of it
    have hfront : row.take (row.length - keep) ++ (row.drop (row.length - keep)).take
        ((row.drop (row.length - keep)).length - keep')
        = row.take (row.length - min keep keep') := by
      rw [← List.take_add, List.length_drop]
      congr 1
      omega
    have hnames := congrArg (List.map BackupEntry.file) hfront
    rw [List.map_append] at hnames
    refine ⟨?_, hnames⟩
    rw [hgone₂, hw₁', hgone₁, hgone₃, hw', ← Disk.dropFiles_append, hnames]

/-- What pruning comes to, wherever calls are struck. -/
structure Prunes (s : Storage) (name : String) (w : World ω) : Prop where
  /-- if the listing fails, so does pruning, and nothing is deleted -/
  unlisted : ∀ keep f, (listBackups s name w).1 = .fail f →
    (pruneBackups s name keep w).1 = .fail f ∧ (pruneBackups s name keep w).2.disk = w.disk
  stopped : ∀ keep p, (listBackups s name w).1 = .panic p →
    (pruneBackups s name keep w).1 = .panic p ∧ (pruneBackups s name keep w).2.disk = w.disk
  /-- if there is a listing, it is from its front that backups are deleted -/
  listed : ∀ entries w', listBackups s name w = (.ok entries, w') →
    ∃ dir, w.disk.locate s.base = .ok (.folder dir) ∧
      PrunesFront s name dir w (entries.filter BackupEntry.isTimestamped)

/-- Of any folder pruning deletes a front of the listing, however it ends. -/
theorem pruneBackups_front (h : s.FilesNamed w.disk) (name : String) : Prunes s name w where
  unlisted keep f hf := by
    have hrun : listBackups s name w = (.fail f, (listBackups s name w).2) := Prod.ext hf rfl
    refine ⟨?_, (pruneBackups_of_stop keep (hf ▸ Outcome.isStop_fail f)).2⟩
    rw [pruneBackups, Act.bind_apply, hrun]
  stopped keep p hp := by
    have hrun : listBackups s name w = (.panic p, (listBackups s name w).2) := Prod.ext hp rfl
    refine ⟨?_, (pruneBackups_of_stop keep (hp ▸ Outcome.isStop_panic p)).2⟩
    rw [pruneBackups, Act.bind_apply, hrun]
  listed entries w' hlist := by
    obtain ⟨dir, hrow⟩ := exists_lists h hlist
    exact ⟨dir, hrow.base, prunesFront_of_lists hrow (faultAt_of_listBackups hlist)⟩

/-! ## A pruning that is struck -/

namespace Sample

/--
Two backups of one second, behind which the third call of the storage is struck: seven calls have
been made of it so far, probes included.
-/
def interrupted : World Unit :=
  { doubled with
    plan := fun n _ => if n = 9 then some (.fail (.io "interrupted")) else none }

theorem filesNamed_interrupted : (Storage.mk "/" true).FilesNamed interrupted.disk := by
  have hbase : interrupted.disk.locate "/" = .ok (.folder []) :=
    except_eq_ok_of_toOption (by decide +kernel)
  have hall : (interrupted.disk.folder? []).all (fun f => f.keys.all fun file =>
      Disk.isPlainName file && decide (file.utf8ByteSize ≤ Path.nameLimit) &&
        (interrupted.disk.folder? ([] ++ [file])).isNone) = true := by
    decide +kernel
  intro dir f hd hf file hfile
  cases hbase.symm.trans hd
  rw [hf, Option.all_some, List.all_eq_true] at hall
  simpa [and_assoc] using hall file hfile

end Sample

/-- The first of two backups is gone when the deletion of the second fails. -/
theorem pruneBackups_interrupted :
    (Storage.mk "/" true).FilesNamed Sample.interrupted.disk ∧
      Prunes ⟨"/", true⟩ "auto" Sample.interrupted ∧
      ∃ w', pruneBackups ⟨"/", true⟩ "auto" 0 Sample.interrupted
          = (.fail (.io "interrupted"), w') ∧
        Storage.FrontGone ⟨"/", true⟩ "auto" []
          [.stamped "auto" (Sample.second 9) 0, .stamped "auto" (Sample.second 9) 1] 1
          Sample.interrupted.disk w'.disk := by
  have h : Prunes ⟨"/", true⟩ "auto" Sample.interrupted :=
    pruneBackups_front Sample.filesNamed_interrupted "auto"
  refine ⟨Sample.filesNamed_interrupted, h, ?_⟩
  have hstanding := Sample.run_doubled.standing (by decide)
  obtain ⟨dir, hh⟩ := hstanding.holds
  have hlists : (Storage.mk "/" true).Lists "auto" dir Sample.interrupted.disk
      [.stamped "auto" (Sample.second 9) 0, .stamped "auto" (Sample.second 9) 1] :=
    ⟨⟨hh.base, hh.there, hh.mem_iff, hh.placed, hh.nodup⟩,
      (hstanding.ascending trivial).imp Or.inl⟩
  obtain ⟨entries, hlist, hrow⟩ := listBackups_of_none (by decide +kernel) hlists
  obtain ⟨dir', hbase, hfront⟩ := h.listed _ _ hlist
  have hroot : Sample.interrupted.disk.locate "/" = .ok (.folder []) :=
    except_eq_ok_of_toOption (by decide +kernel)
  cases hbase.symm.trans hroot
  rw [hrow] at hfront
  exact hfront.struck 0 1 (.fail (.io "interrupted")) (by decide) (by decide +kernel)
    (by decide +kernel)

end Keepsake
