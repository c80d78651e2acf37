import Keepsake.Proofs.Pass
/-!
# A save is all or nothing

A save that succeeds has replaced the save file and is remembered; one that does not has done
nothing to the save file and is forgotten (`SaveFile.SaveEnd`). What it may leave beside the save
file is a single backup with the bytes the save file had before: the disk behind a save is told file
by file. The save file is replaced by way of a temporary file, and of that nothing is left, wherever
the save is struck (`Storage.Staged`). What stops a save that could be encoded is a panic while the
backup is taken, also of the call that asks whether there is a save file, or the replacing of the
save file; a backup that merely fails stops nothing.

Nothing is assumed about the name of the save-file: that its files are different ones is seen from
the last characters of their names (`Storage.getLast?_of_locate`).
-/

namespace Keepsake

variable {ω ε : Type}

/-! ## Where a path ends -/

namespace Disk

/-- A walk that comes to an entry comes to the one that its last part names. -/
theorem getLast?_of_walk {d : Disk} {dir path : Path} {parts : List String} {file : String}
    (h : d.walk dir parts = .ok (.entry path file)) : parts.getLast? = some file := by
  induction parts generalizing dir with
  | nil => cases h
  | cons part rest ih =>
    have step : ∀ dir, d.walk dir rest = .ok (.entry path file) →
        (part :: rest).getLast? = some file := by
      intro dir hw
      rw [List.getLast?_cons, ih hw]
      rfl
    unfold walk at h
    split at h
    · exact step dir h
    · split at h
      · exact step dir.dropLast h
      · split at h
        · cases h
        · split at h
          · exact step (dir ++ [part]) h
          · split at h
            · next hlast =>
              cases h
              rw [List.isEmpty_iff.1 hlast]
              rfl
            · split at h <;> cases h

end Disk

/-- Parts joined by a separator end as the last part does, unless with the separator. -/
theorem Path.getLast?_of_intercalate {x c : Char} {parts : List (List Char)} {last : List Char}
    (hlast : parts.getLast? = some last) (hc : ([x].intercalate parts).getLast? = some c)
    (hne : c ≠ x) : last.getLast? = some c := by
  induction parts with
  | nil => cases hlast
  | cons a rest ih =>
    cases rest with
    | nil =>
      cases hlast
      simpa using hc
    | cons b rest =>
      have hcons : [x].intercalate (a :: b :: rest) = a ++ x :: [x].intercalate (b :: rest) := by
        simp [List.intercalate]
      rw [hcons, List.getLast?_append, List.getLast?_cons] at hc
      refine ih (by rw [← hlast, List.getLast?_cons_cons]) ?_
      cases hr : ([x].intercalate (b :: rest)).getLast? with
      | none =>
        rw [hr] at hc
        exact absurd (Option.some.inj hc).symm hne
      | some c' => simpa [hr] using hc

/-- The last part of a path ends as the path does. -/
theorem Path.getLast?_parts {s part : String} {c : Char} (hc : s.toList.getLast? = some c)
    (hslash : c ≠ '/') (h : (Path.parts s).getLast? = some part) :
    part.toList.getLast? = some c := by
  unfold Path.parts at h
  rw [List.getLast?_map] at h
  obtain ⟨last, hlast, rfl⟩ := Option.map_eq_some_iff.1 h
  rw [String.toList_ofList]
  rw [← @List.intercalate_splitOn Char s.toList _ _ '/'] at hc
  exact getLast?_of_intercalate hlast hc hslash

namespace Storage

/-- A file ends as the name does that leads to it. -/
theorem getLast?_of_locate {s : Storage} {d : Disk} {name file : String} {path : Path} {c : Char}
    (hc : name.toList.getLast? = some c) (hslash : c ≠ '/')
    (h : s.locate d name = .ok (.entry path file)) : file.toList.getLast? = some c := by
  unfold locate Disk.locateIn at h
  split at h
  · split at h
    · cases h
    · have hlast := Disk.getLast?_of_walk h
      cases hlast
      exact hc
    · split at h <;> cases h
  · have hjoin : (Path.join s.base name).toList.getLast? = some c := by
      unfold Path.join
      split
      · exact hc
      · split <;> simp [List.getLast?_cons, hc]
    unfold Disk.locate at h
    split at h
    · cases h
    · split at h
      · cases h
      · exact Path.getLast?_parts hjoin hslash (Disk.getLast?_of_walk h)

/-- A backup is never the same file as the save file, wherever the two are kept. -/
theorem file_ne_of_isBackupName {s : Storage} {d : Disk} {name target : String}
    {path dir : Path} {file own : String} (family : IsBackupName name target)
    (htarget : s.locate d target = .ok (.entry path file))
    (h : s.locate d (canonicalName name) = .ok (.entry dir own)) : file ≠ own := by
  rintro rfl
  have hv := getLast?_of_locate (getLast?_canonicalName name) (by decide) h
  -- the file would end in a `v`, and also in a `B` or a digit
  cases family with
  | rotating =>
    have hB := getLast?_of_locate (getLast?_rotatingName name) (by decide) htarget
    rw [hv] at hB
    cases hB
  | timestamped stamp counter =>
    obtain ⟨c, hc, hne⟩ := getLast?_withCounter name stamp counter
    have hdigit := getLast?_of_locate hc (hne '/' (by decide)) htarget
    rw [hv] at hdigit
    exact hne 'v' (by decide) (Option.some.inj hdigit).symm

end Storage

/-! ## What a backup leaves -/

/-- How taking a backup ends, and the world behind it. -/
inductive BackupEnd (s : Storage) (name : String) (mode : BackupMode) (stamp : Stamp)
    (w : World ω) : Outcome Failure (Option String) → World ω → Prop where
  /-- there is no save file, or no backups are wanted -/
  | untaken {w' : World ω} (called : w.OnlyCalled w')
    (unwanted : s.contains w.disk (canonicalName name) = true → mode = .off) :
    BackupEnd s name mode stamp w (.ok none) w'
  /-- what the save file holds has been put into a file with the name of a backup -/
  | taken {target file : String} {path : Path} {data : ByteArray} {w' : World ω}
    (called : w.OnlyCalled w')
    (chosen : backupTarget s w.disk name mode stamp = some target)
    (source : s.content? w.disk (canonicalName name) = some data)
    (place : s.locate w.disk target = .ok (.entry path file))
    (there : (w.disk.folder? path).isSome = true) :
    BackupEnd s name mode stamp w (.ok (some target))
      { w' with disk := w.disk.setFile path file data }
  /-- a probe was struck, or the copy was refused or struck -/
  | stopped {o : Outcome Failure (Option String)} {w' : World ω} (called : w.OnlyCalled w')
    (stop : o.IsStop) : BackupEnd s name mode stamp w o w'

theorem takeBackup_end (s : Storage) (name : String) (mode : BackupMode) (stamp : Stamp)
    (w : World ω) : BackupEnd s name mode stamp w (takeBackup s name mode stamp w).1
      (takeBackup s name mode stamp w).2 := by
  cases takeBackup_probed s name mode stamp w with
  | unwanted probed reason run =>
    rw [run]
    exact .untaken probed reason
  | struck probed _ run =>
    rw [run]
    exact .stopped probed (Outcome.isStop_panic _)
  | @copying target w₁ probed _ chosen run =>
    have hdisk := probed.alike.disk
    have hcalled := probed.trans w₁.onlyCalled_called
    have family := isBackupName_of_backupTarget chosen
    have hne : ∀ path file, s.locate w₁.disk (canonicalName name) = .ok (.entry path file) →
        s.locate w₁.disk target ≠ .ok (.entry path file) := by
      intro path file hsource htarget
      exact Storage.file_ne_of_isBackupName family htarget hsource rfl
    rw [run]
    rcases Storage.copy_run hne with ⟨data, path, file, hdata, hl, hf, heq⟩ | ⟨hstop, heq⟩
    · rw [Act.bind_of_ok heq]
      rw [hdisk] at hdata hl hf ⊢
      exact .taken hcalled chosen hdata hl hf
    · obtain ⟨hstop', heq'⟩ := Act.bind_of_stop (fun _ => Pure.pure (some target)) hstop
      rw [heq', heq]
      exact .stopped hcalled hstop'

/--
What taking a backup leaves of a disk: the disk as it was, or the same with one more file, which
has the name of a backup and holds what the save file holds.
-/
inductive BackupLeaves (s : Storage) (name : String) (d : Disk) : Disk → Prop where
  | nothing : BackupLeaves s name d d
  | copied {target file : String} {path : Path} {data : ByteArray}
    (family : IsBackupName name target) (place : s.locate d target = .ok (.entry path file))
    (there : (d.folder? path).isSome = true)
    (source : s.content? d (canonicalName name) = some data) :
    BackupLeaves s name d (d.setFile path file data)

theorem BackupEnd.leaves {s : Storage} {name : String} {mode : BackupMode} {stamp : Stamp}
    {w w' : World ω} {o : Outcome Failure (Option String)}
    (h : BackupEnd s name mode stamp w o w') :
    BackupLeaves s name w.disk w'.disk := by
  cases h with
  | untaken called | stopped called => exact called.alike.disk ▸ .nothing
  | taken _ chosen source place there =>
    exact .copied (isBackupName_of_backupTarget chosen) place there source

theorem takeBackup_leaves (s : Storage) (name : String) (mode : BackupMode) (stamp : Stamp)
    (w : World ω) : BackupLeaves s name w.disk (takeBackup s name mode stamp w).2.disk :=
  (takeBackup_end s name mode stamp w).leaves

namespace BackupLeaves

variable {s : Storage} {name : String} {d d' : Disk}

theorem sameFolders (h : BackupLeaves s name d d') : Disk.SameFolders d d' := by
  cases h with
  | nothing => exact ⟨rfl, fun _ => rfl⟩
  | @copied _ file path data _ _ _ _ => exact Disk.sameFolders_setFile d path file data

/-- The save file holds what it held. -/
theorem content?_self (h : BackupLeaves s name d d') :
    s.content? d' (canonicalName name) = s.content? d (canonicalName name) := by
  cases h with
  | nothing => rfl
  | @copied target file path data family place there source =>
    unfold Storage.content? at source ⊢
    split at source
    · next dir own hl =>
      have hl' : s.locate (d.setFile path file data) (canonicalName name) = .ok (.entry dir own) :=
        Disk.locateIn_of_sameFolders (Disk.sameFolders_setFile d path file data) hl
      rw [hl']
      exact Disk.file?_setFile_of_ne (Storage.file_ne_of_isBackupName family place hl)
    · cases source

end BackupLeaves

/-! ## Saves -/

namespace SaveFile

/-- How a save ends, and what it leaves. -/
inductive SaveEnd (f : SaveFile ω) (s : Storage) (format : Format) (snapshot : Snapshot)
    (now : Nat) (w : World ω) : Outcome Failure (SaveFile ω) → World ω → Prop where
  /-- the save is remembered, and the save file has been replaced -/
  | saved {data : ByteArray} {d : Disk} {path : Path} {file : String} {w' : World ω}
    (encoded : format.encode snapshot = .ok data) (backup : BackupLeaves s f.name w.disk d)
    (place : s.locate w.disk (canonicalName f.name) = .ok (.entry path file))
    (disk : w'.disk = d.setFile path file data)
    (written : s.content? w'.disk (canonicalName f.name) = some data) :
    SaveEnd f s format snapshot now w (.ok { f with lastSave := some ⟨snapshot, now⟩ }) w'
  /-- nothing at all has been done -/
  | unencoded {e : Failure} (refused : format.encode snapshot = .error e) :
    SaveEnd f s format snapshot now w (.fail e) w
  /-- the save file is as it was, since the backup panicked or the replacing stopped -/
  | stopped {data : ByteArray} {o : Outcome Failure (SaveFile ω)} {w' : World ω}
    (encoded : format.encode snapshot = .ok data) (stop : o.IsStop)
    (cause : (∃ p, (f.backUp s w).1 = .panic p) ∨ ∃ w₁, (f.backUp s w).2.OnlyLogged w₁ ∧
      (s.write data (canonicalName f.name) w₁).1.IsStop)
    (backup : BackupLeaves s f.name w.disk w'.disk)
    (kept : s.content? w'.disk (canonicalName f.name)
      = s.content? w.disk (canonicalName f.name)) :
    SaveEnd f s format snapshot now w o w'

/-- A save ends in one of the three ways. -/
theorem save_end (f : SaveFile ω) (s : Storage) (format : Format) (snapshot : Snapshot)
    (now : Nat) (w : World ω) :
    f.SaveEnd s format snapshot now w (f.save s format snapshot now w).1
      (f.save s format snapshot now w).2 := by
  have hleaves : BackupLeaves s f.name w.disk (f.backUp s w).2.disk :=
    takeBackup_leaves s f.name f.settings.backupMode w.now w
  rcases save_run f s format snapshot now w with
    ⟨e, he, hsave⟩ | ⟨data, he, ⟨p, hp, hstop, hworld⟩ | ⟨w₁, -, hlog, h⟩⟩
  · rw [hsave]
    exact .unencoded he
  · rw [hworld]
    exact .stopped he hstop (Or.inl ⟨p, hp⟩) hleaves hleaves.content?_self
  · have hdisk : w₁.disk = (f.backUp s w).2.disk := hlog.alike.disk
    rw [← hdisk] at hleaves
    rcases Storage.write_run s data (canonicalName f.name) w₁ with
      ⟨path, file, hl, hf, hwrite⟩ | ⟨hunwritten, hwrite⟩
    · rcases h with ⟨hunwritten, -⟩ | ⟨w₂, w', hwrite', ha, hsave⟩
      · rw [hwrite] at hunwritten
        exact absurd rfl (hunwritten ())
      · obtain rfl : _ = w₂ := congrArg Prod.snd (hwrite.symm.trans hwrite')
        have hdisk' : w'.disk = w₁.disk.setFile path file data := ha.disk
        rw [hsave]
        refine .saved he hleaves ?_ hdisk' ?_
        · exact Disk.locateIn_of_sameFolders hleaves.sameFolders.symm hl
        · rw [hdisk']
          exact Storage.content?_setFile_self hl hf
    · rcases h with ⟨-, hstop, hworld⟩ | ⟨w₂, w', hwrite', -⟩
      · have hdisk' : (f.save s format snapshot now w).2.disk = w₁.disk := by
          rw [hworld, hwrite]
          rfl
        rw [← hdisk'] at hleaves
        exact .stopped he hstop (Or.inr ⟨w₁, hlog, hunwritten⟩) hleaves hleaves.content?_self
      · rw [hwrite'] at hunwritten
        exact absurd rfl (hunwritten ())

/-! ## Passes -/

/-- Reading accessors calls no storage. -/
theorem calls_readEntries (file : String) (entries : List (String × Accessor ω)) (w : World ω) :
    ((readEntries file entries : Act ω ε _) w).2.calls = w.calls := by
  induction entries generalizing w with
  | nil => rfl
  | cons e rest ih =>
    obtain ⟨key, a⟩ := e
    unfold readEntries
    rw [Act.settle_bind, Act.onVars_apply]
    cases (a.get w.vars).1 with
    | ok v =>
      rw [Act.bind_pure_snd]
      exact ih _
    | fail e => exact ih _
    | panic p => rfl

theorem calls_readSnapshot (f : SaveFile ω) (w : World ω) :
    ((f.readSnapshot : Act ω ε Snapshot) w).2.calls = w.calls := by
  unfold readSnapshot
  rw [Act.bind_pure_snd]
  exact calls_readEntries f.name f.accessors.entries w

/-- How a pass over a save-file ends, and what it leaves. -/
inductive PassEnd (f : SaveFile ω) (s : Storage) (format : Format) (now : Nat)
    (w : World ω) : PassResult → SaveFile ω → World ω → Prop where
  /-- no save was begun -/
  | idle {result : PassResult} {w' : World ω} (unsaved : result ≠ .saved)
    (disk : w'.disk = w.disk) (calls : w'.calls = w.calls) : PassEnd f s format now w result f w'
  | saved {snapshot : Snapshot} {f' : SaveFile ω} {w₁ w₂ w' : World ω}
    (read : (f.readSnapshot : Act ω Failure Snapshot) w = (.ok snapshot, w₁))
    (disk : w₁.disk = w.disk) (calls : w₁.calls = w.calls)
    (save : f.SaveEnd s format snapshot now w₁ (.ok f') w₂) (recorded : w₂.OnlyRecorded w') :
    PassEnd f s format now w .saved f' w'
  /-- the save stopped, perhaps by a panic -/
  | failed {snapshot : Snapshot} {e : Failure} {o : Outcome Failure (SaveFile ω)}
    {w₁ w₂ w' : World ω}
    (read : (f.readSnapshot : Act ω Failure Snapshot) w = (.ok snapshot, w₁))
    (disk : w₁.disk = w.disk) (calls : w₁.calls = w.calls) (stop : o.IsStop)
    (save : f.SaveEnd s format snapshot now w₁ o w₂) (recorded : w₂.OnlyRecorded w') :
    PassEnd f s format now w (.failed e) f w'

/-- However a pass ends, the save in it did all or nothing. -/
theorem pass_end (f : SaveFile ω) (s : Storage) (format : Format) (now : Nat)
    (onlyChanged : Bool) (w : World ω) :
    ∃ result f' w', (f.pass s format now onlyChanged : Act ω ε _) w = (.ok (result, f'), w') ∧
      f.PassEnd s format now w result f' w' := by
  obtain ⟨w', hpass, hrec⟩ := pass_apply (ε := ε) f s format now onlyChanged w
  have hdisk := (readSnapshot_sameButVars (ε := Failure) f w).disk
  have hcalls := calls_readSnapshot (ε := Failure) f w
  refine ⟨(f.resultOf (f.saveIfNeeded s format now onlyChanged w).1).1,
    (f.resultOf (f.saveIfNeeded s format now onlyChanged w).1).2, w', hpass, ?_⟩
  rcases saveIfNeeded_cases f s format now onlyChanged w with
    ⟨hstop, hworld, -⟩ | ⟨snapshot, w₁, hr, ⟨-, -, heq⟩ | ⟨-, heq⟩⟩
  · obtain ⟨e, he⟩ := f.exists_failed_of_isStop hstop
    rw [hworld] at hrec
    rw [he]
    obtain ⟨log, metrics, rfl⟩ := hrec
    exact .idle nofun hdisk hcalls
  · rw [hr] at hdisk hcalls
    rw [heq] at hrec ⊢
    obtain ⟨log, metrics, rfl⟩ := hrec
    exact .idle nofun hdisk hcalls
  · rw [hr] at hdisk hcalls
    have hend := f.save_end s format snapshot now w₁
    rw [heq] at hrec ⊢
    cases ho : (f.save s format snapshot now w₁).1 with
    | ok f' =>
      rw [ho] at hend
      exact .saved hr hdisk hcalls hend hrec
    | fail e =>
      rw [ho] at hend
      exact .failed hr hdisk hcalls (Outcome.isStop_fail e) hend hrec
    | panic p =>
      rw [ho] at hend
      exact .failed hr hdisk hcalls (Outcome.isStop_panic p) hend hrec

/--
Whatever strikes, a save and the pass around it leave the save file as the save was remembered,
or as it was.
-/
theorem save_allOrNothing (f : SaveFile ω) (s : Storage) (format : Format) (now : Nat)
    (w : World ω) :
    (∀ snapshot, f.SaveEnd s format snapshot now w (f.save s format snapshot now w).1
      (f.save s format snapshot now w).2) ∧
      ∀ onlyChanged, ∃ result f' w',
        (f.pass s format now onlyChanged : Act ω ε _) w = (.ok (result, f'), w') ∧
          f.PassEnd s format now w result f' w' := by
  constructor
  · intro snapshot
    exact f.save_end s format snapshot now w
  · intro onlyChanged
    exact f.pass_end s format now onlyChanged w

end SaveFile

end Keepsake
