import Keepsake.Engine.Save
import Keepsake.Proofs.Name
import Keepsake.Proofs.NextBackup
/-!
# What a pass over a save-file does

A pass always ends with a result, and there are three of them (`PassEffect`). It saved: the
snapshot it read is what the save-file remembers, and its encoding is what the save file holds. It
found nothing changed, and touched nothing. Or it failed, and the save-file remembers what it did
before. Beside the save file itself a pass puts at most one file, a backup of the same save-file
(`BackupEffect`), so it changes no other save file.
-/

namespace Keepsake

variable {ω ε : Type}

/-! ## Backups -/

theorem freeName_eq_withCounter (taken : String → Bool) (base : String) (counter tries : Nat) :
    ∃ n, freeName taken base counter tries = withCounter base n := by
  induction tries generalizing counter with
  | zero => exact ⟨counter, rfl⟩
  | succ tries ih =>
    unfold freeName
    split
    · exact ih (counter + 1)
    · exact ⟨counter, rfl⟩

theorem isBackupName_of_backupTarget {s : Storage} {d : Disk} {name target : String}
    {mode : BackupMode} {stamp : Stamp} (h : backupTarget s d name mode stamp = some target) :
    IsBackupName name target := by
  cases mode with
  | off => cases h
  | rotating => cases h; exact .rotating
  | timestamped =>
    cases h
    obtain ⟨n, hn⟩ := freeName_eq_withCounter (s.contains d) (timestampedName name stamp) 0
      (d.fileCount + 1)
    rw [hn]
    exact .timestamped stamp n

/--
What taking a backup may do to the disk: nothing, or put the save file's content under a name for
it.
-/
inductive BackupEffect (s : Storage) (name : String) (d : Disk) : Disk → Prop where
  | nothing : BackupEffect s name d d
  | copied {d' : Disk} {target : String} {data : ByteArray} (family : IsBackupName name target)
    (source : s.content? d (canonicalName name) = some data) (puts : s.Puts d d' target data) :
    BackupEffect s name d d'

/-- Taking a backup changes no save file, not even the one that is copied. -/
theorem BackupEffect.content?_canonicalName {s : Storage} {name : String} {d d' : Disk}
    (h : BackupEffect s name d d') {other : String} (ho : '/' ∉ other.toList) :
    s.content? d' (canonicalName other) = s.content? d (canonicalName other) := by
  cases h with
  | nothing => rfl
  | copied family _ puts =>
    exact puts.others _ (isEntryName_canonicalName ho)
      (canonicalName_ne_of_isBackupName family other)

theorem takeBackup_effect {s : Storage} {name : String} (hn : '/' ∉ name.toList) (mode : BackupMode)
    (stamp : Stamp) (w : World ω) :
    BackupEffect s name w.disk (takeBackup s name mode stamp w).2.disk ∧
      w.SameButDisk (takeBackup s name mode stamp w).2 := by
  cases takeBackup_probed s name mode stamp w with
  | unwanted probed _ run | struck probed _ run =>
    have hw := probed.alike
    rw [run]
    exact ⟨hw.disk ▸ .nothing, hw.toSameButDisk⟩
  | @copying target w₁ probed _ chosen run =>
    have hw₁ := probed.alike
    have family := isBackupName_of_backupTarget chosen
    have hne := canonicalName_ne_of_isBackupName family name
    rw [run, Act.bind_pure_snd]
    rcases Storage.copy_cases (s := s) (isEntryName_canonicalName hn)
      (isEntryName_of_isBackupName hn family) hne w₁ with ⟨w', data, h, hw, hdata, hputs⟩ |
        ⟨hstop, hw⟩
    · rw [h]
      rw [hw₁.disk] at hdata hputs
      exact ⟨.copied family hdata hputs, hw₁.toSameButDisk.trans hw⟩
    · have hw := hw₁.trans hw
      exact ⟨hw.disk ▸ .nothing, hw.toSameButDisk⟩

namespace SaveFile

/-- Takes a backup of a save-file now, as its mode says. -/
def backUp (f : SaveFile ω) (s : Storage) : Act ω Failure (Option String) := fun w =>
  takeBackup s f.name f.settings.backupMode w.now w

theorem backUp_effect (f : SaveFile ω) (s : Storage) (hn : '/' ∉ f.name.toList) (w : World ω) :
    BackupEffect s f.name w.disk (f.backUp s w).2.disk ∧ w.SameButDisk (f.backUp s w).2 :=
  takeBackup_effect hn f.settings.backupMode w.now w

/-- Backing up before a save does not fail; only a panic stops it. -/
theorem backUpForSave_cases (f : SaveFile ω) (s : Storage) (w : World ω) :
    (∃ w', (f.backUpForSave s : Act ω ε Unit) w = (.ok (), w') ∧
        (f.backUp s w).2.OnlyLogged w' ∧ ∀ p, (f.backUp s w).1 ≠ .panic p) ∨
      ∃ p, (f.backUp s w).1 = .panic p ∧
        (f.backUpForSave s : Act ω ε Unit) w = (.panic p, (f.backUp s w).2) := by
  unfold backUpForSave backUp
  rw [Act.get_bind]
  cases hb : (takeBackup s f.name f.settings.backupMode w.now : Act ω Failure _) w with
  | mk o w₁ =>
    cases o with
    | ok taken =>
      rw [Act.bind_of_ok (Act.attempt_of_ok hb)]
      cases taken with
      | none => exact Or.inl ⟨w₁, rfl, World.OnlyLogged.refl w₁, nofun⟩
      | some backup =>
        obtain ⟨w', h', ha⟩ := Act.tell_onlyLogged (ε := ε) .persister .debug
          "backed up save file" [("file", .text f.name), ("backup", .text backup)] w₁
        exact Or.inl ⟨w', h', ha, nofun⟩
    | fail e =>
      rw [Act.bind_of_ok (Act.attempt_of_fail hb)]
      obtain ⟨w', h', ha⟩ := Act.tell_onlyLogged (ε := ε) .persister .warn
        "backup failed, saving anyway" [("file", .text f.name), ("error", .text e.message)] w₁
      exact Or.inl ⟨w', h', ha, nofun⟩
    | panic p =>
      refine Or.inr ⟨p, rfl, ?_⟩
      rw [Act.bind_apply, Act.attempt_of_panic hb]

/-! ## Reading and saving -/

theorem within_readEntries {F : Act.Frame ω} (file : String) {entries : List (String × Accessor ω)}
    (h : ∀ e ∈ entries, Act.Within F (Act.onVars e.2.get)) :
    Act.Within F (readEntries file entries : Act ω ε _) := by
  induction entries with
  | nil => exact Act.within_pure _
  | cons e rest ih =>
    obtain ⟨key, a⟩ := e
    rw [List.forall_mem_cons] at h
    refine h.1.settle.bind fun o => ?_
    cases o with
    | ok v => exact (ih h.2).bind fun _ => Act.within_pure _
    | fail e => exact (Act.within_tell _ _ _ _).bind fun _ => ih h.2
    | panic p => exact Act.within_panic p

theorem within_readSnapshot {F : Act.Frame ω} {f : SaveFile ω}
    (h : ∀ e ∈ f.accessors.entries, Act.Within F (Act.onVars e.2.get)) :
    Act.Within F (f.readSnapshot : Act ω ε Snapshot) :=
  (within_readEntries _ h).bind fun _ => Act.within_pure _

/-- Reading the accessors touches the variables and nothing that a storage holds. -/
theorem readSnapshot_sameButVars (f : SaveFile ω) (w : World ω) :
    w.SameButVars ((f.readSnapshot : Act ω ε Snapshot) w).2 :=
  within_readSnapshot (F := .butVars) (fun e _ => Act.within_onVars e.2.get) w

/--
A save encodes the snapshot, backs up the present file and writes the new one; it ends with the
first of these that stops.
-/
theorem save_run (f : SaveFile ω) (s : Storage) (format : Format) (snapshot : Snapshot)
    (now : Nat) (w : World ω) :
    (∃ e, format.encode snapshot = .error e ∧ f.save s format snapshot now w = (.fail e, w)) ∨
      ∃ data, format.encode snapshot = .ok data ∧
        ((∃ p, (f.backUp s w).1 = .panic p ∧ (f.save s format snapshot now w).1.IsStop ∧
            (f.save s format snapshot now w).2 = (f.backUp s w).2) ∨
          ∃ w₁, (∀ p, (f.backUp s w).1 ≠ .panic p) ∧ (f.backUp s w).2.OnlyLogged w₁ ∧
            ((s.write data (canonicalName f.name) w₁).1.IsStop ∧
                (f.save s format snapshot now w).1.IsStop ∧
                (f.save s format snapshot now w).2
                  = (s.write data (canonicalName f.name) w₁).2 ∨
              ∃ w₂ w', s.write data (canonicalName f.name) w₁ = (.ok (), w₂) ∧ w₂.Alike w' ∧
                f.save s format snapshot now w
                  = (.ok { f with lastSave := some ⟨snapshot, now⟩ }, w'))) := by
  unfold save
  cases he : format.encode snapshot with
  | error e => exact Or.inl ⟨e, rfl, rfl⟩
  | ok data =>
    refine Or.inr ⟨data, rfl, ?_⟩
    rw [Act.ofExcept_ok_bind]
    rcases backUpForSave_cases (ε := Failure) f s w with ⟨w₁, hb, hlog, hno⟩ | ⟨p, hp, hb⟩
    · -- whether a backup was taken or not, the snapshot is written next
      refine Or.inr ⟨w₁, hno, hlog, ?_⟩
      rw [Act.bind_of_ok hb]
      cases hwrite : s.write data (canonicalName f.name) w₁ with
      | mk o w₂ =>
        cases o with
        | ok u =>
          rw [Act.bind_of_ok hwrite]
          obtain ⟨w₃, hcount, ha₃⟩ :=
            Act.count_apply (ε := Failure) (Metrics.addSize · data.size) w₂
          rw [Act.bind_of_ok hcount]
          obtain ⟨w₄, htell, ha₄⟩ := Act.tell_apply (ε := Failure) .persister .info
            "saved snapshot" [("file", .text f.name), ("entries", .number snapshot.size),
              ("bytes", .number data.size)] w₃
          rw [Act.bind_of_ok htell]
          exact Or.inr ⟨w₂, w₄, rfl, ha₃.trans ha₄, rfl⟩
        | fail e =>
          rw [Act.bind_apply, hwrite]
          exact Or.inl ⟨Outcome.isStop_fail e, Outcome.isStop_fail e, rfl⟩
        | panic p =>
          rw [Act.bind_apply, hwrite]
          exact Or.inl ⟨Outcome.isStop_panic p, Outcome.isStop_panic p, rfl⟩
    · -- a panic while backing up ends the save before anything is written
      rw [Act.bind_apply, hb]
      exact Or.inl ⟨p, hp, Outcome.isStop_panic p, rfl⟩

/-- What a save leaves of the entries beside its own. -/
theorem save_cases (f : SaveFile ω) (s : Storage) (format : Format) (snapshot : Snapshot)
    (now : Nat) (hn : '/' ∉ f.name.toList) (w : World ω) :
    (∃ e, format.encode snapshot = .error e ∧ f.save s format snapshot now w = (.fail e, w)) ∨
      ∃ data, format.encode snapshot = .ok data ∧
        ((f.save s format snapshot now w).1.IsStop ∧
            (f.backUp s w).2.Alike (f.save s format snapshot now w).2 ∨
          ∃ w', f.save s format snapshot now w
              = (.ok { f with lastSave := some ⟨snapshot, now⟩ }, w') ∧
            (∀ p, (f.backUp s w).1 ≠ .panic p) ∧ (f.backUp s w).2.SameButDisk w' ∧
            s.Puts (f.backUp s w).2.disk w'.disk (canonicalName f.name) data) := by
  rcases save_run f s format snapshot now w with he | ⟨data, he, ⟨p, -, hstop, hworld⟩ |
    ⟨w₁, hno, hlog, h⟩⟩
  · exact Or.inl he
  · exact Or.inr ⟨data, he, Or.inl ⟨hstop, hworld ▸ World.Alike.refl _⟩⟩
  · refine Or.inr ⟨data, he, ?_⟩
    have ha₁ := hlog.alike
    rcases Storage.write_cases (s := s) (isEntryName_canonicalName hn) data w₁ with
      ⟨w₂, hwrite, hw₂, hputs⟩ | ⟨hunwritten, hw₂⟩
    · rcases h with ⟨hunwritten, -⟩ | ⟨w₃, w', hwrite', ha, hsave⟩
      · rw [hwrite] at hunwritten
        exact absurd rfl (hunwritten ())
      · obtain rfl : w₂ = w₃ := congrArg Prod.snd (hwrite.symm.trans hwrite')
        refine Or.inr ⟨w', hsave, hno, (ha₁.toSameButDisk.trans hw₂).trans ha.toSameButDisk, ?_⟩
        rw [ha.disk, ← ha₁.disk]
        exact hputs
    · rcases h with ⟨-, hstop, hworld⟩ | ⟨w₃, w', hwrite', -⟩
      · exact Or.inl ⟨hstop, hworld ▸ ha₁.trans hw₂⟩
      · rw [hwrite'] at hunwritten
        exact absurd rfl (hunwritten ())

/--
Reading and saving comes to a save unless reading stops, or only changes are asked for and there
are none.
-/
theorem saveIfNeeded_cases (f : SaveFile ω) (s : Storage) (format : Format) (now : Nat)
    (onlyChanged : Bool) (w : World ω) :
    ((f.saveIfNeeded s format now onlyChanged w).1.IsStop ∧
        (f.saveIfNeeded s format now onlyChanged w).2
          = ((f.readSnapshot : Act ω Failure Snapshot) w).2 ∧
        ((f.readSnapshot : Act ω Failure Snapshot) w).1.IsStop) ∨
      ∃ snapshot w₁, (f.readSnapshot : Act ω Failure Snapshot) w = (.ok snapshot, w₁) ∧
        (onlyChanged = true ∧ snapshot.changed (f.lastSave.map (·.snapshot)) = false ∧
            f.saveIfNeeded s format now onlyChanged w = (.ok none, w₁) ∨
          (onlyChanged = true → snapshot.changed (f.lastSave.map (·.snapshot)) = true) ∧
            f.saveIfNeeded s format now onlyChanged w
              = ((f.save s format snapshot now w₁).1.map some,
                (f.save s format snapshot now w₁).2)) := by
  unfold saveIfNeeded
  cases hr : (f.readSnapshot : Act ω Failure Snapshot) w with
  | mk o w₁ =>
    cases o with
    | ok snapshot =>
      refine Or.inr ⟨snapshot, w₁, rfl, ?_⟩
      rw [Act.bind_of_ok hr]
      by_cases hskip : (onlyChanged && !snapshot.changed (f.lastSave.map (·.snapshot))) = true
      · rw [if_pos hskip]
        simp only [Bool.and_eq_true, Bool.not_eq_true'] at hskip
        exact Or.inl ⟨hskip.1, hskip.2, rfl⟩
      · rw [if_neg hskip]
        refine Or.inr ⟨fun ho => by simpa [ho] using hskip, ?_⟩
        rw [Act.bind_apply]
        split <;>
          · next heq =>
            rw [heq]
            rfl
    | fail e =>
      rw [Act.bind_apply, hr]
      exact Or.inl ⟨Outcome.isStop_fail e, rfl, Outcome.isStop_fail e⟩
    | panic p =>
      rw [Act.bind_apply, hr]
      exact Or.inl ⟨Outcome.isStop_panic p, rfl, Outcome.isStop_panic p⟩

/-! ## Passes -/

/-- What a pass comes to: its result, the save-file behind it, and the disk. -/
inductive PassEffect (f : SaveFile ω) (s : Storage) (format : Format) (now : Nat)
    (onlyChanged : Bool) (w : World ω) : PassResult → SaveFile ω → Disk → Prop where
  | saved {snapshot : Snapshot} {w₁ : World ω} {data : ByteArray} {d₁ d₂ : Disk}
    (read : (f.readSnapshot : Act ω Failure Snapshot) w = (.ok snapshot, w₁))
    (changed : onlyChanged = true → snapshot.changed (f.lastSave.map (·.snapshot)) = true)
    (encoded : format.encode snapshot = .ok data) (backup : BackupEffect s f.name w.disk d₁)
    (puts : s.Puts d₁ d₂ (canonicalName f.name) data) :
    PassEffect f s format now onlyChanged w .saved { f with lastSave := some ⟨snapshot, now⟩ } d₂
  | unchanged {snapshot : Snapshot} {w₁ : World ω}
    (read : (f.readSnapshot : Act ω Failure Snapshot) w = (.ok snapshot, w₁))
    (only : onlyChanged = true) (same : snapshot.changed (f.lastSave.map (·.snapshot)) = false) :
    PassEffect f s format now onlyChanged w .unchanged f w.disk
  | failed (e : Failure) {d₁ : Disk} (backup : BackupEffect s f.name w.disk d₁) :
    PassEffect f s format now onlyChanged w (.failed e) f d₁

/-- The result of a pass that read and saved with an outcome, and the save-file behind it. -/
def resultOf (f : SaveFile ω) : Outcome Failure (Option (SaveFile ω)) → PassResult × SaveFile ω
  | .ok (some f') => (.saved, f')
  | .ok none => (.unchanged, f)
  | .fail e => (.failed e, f)
  | .panic p => (.failed (.worker ("save pass panicked: " ++ p.message)), f)

theorem exists_failed_of_isStop (f : SaveFile ω) {o : Outcome Failure (Option (SaveFile ω))}
    (h : o.IsStop) : ∃ e, f.resultOf o = (.failed e, f) := by
  cases o with
  | ok answer => exact absurd rfl (h answer)
  | fail e => exact ⟨e, rfl⟩
  | panic p => exact ⟨_, rfl⟩

/-- A pass ends with a result, whatever the accessors and the storage do. -/
theorem pass_apply (f : SaveFile ω) (s : Storage) (format : Format) (now : Nat)
    (onlyChanged : Bool) (w : World ω) :
    ∃ w', (f.pass s format now onlyChanged : Act ω ε _) w
        = (.ok (f.resultOf (f.saveIfNeeded s format now onlyChanged w).1), w') ∧
      (f.saveIfNeeded s format now onlyChanged w).2.OnlyRecorded w' := by
  unfold pass
  rw [Act.settle_bind]
  cases hs : f.saveIfNeeded s format now onlyChanged w with
  | mk o w₁ =>
    -- whatever was settled, counting the result is all that follows
    have counted : ∀ (r : PassResult × SaveFile ω) (w₂ : World ω), w₁.OnlyLogged w₂ →
        ∃ w', (do let r ← Pure.pure r; countPass r.1; Pure.pure r : Act ω ε _) w₂ = (.ok r, w') ∧
          w₁.OnlyRecorded w' := by
      rintro r w₂ ⟨log, rfl⟩
      rw [Act.bind_of_ok (Act.pure_apply _ _)]
      cases r.1 <;> exact ⟨_, rfl, log, _, rfl⟩
    cases o with
    | ok answer =>
      cases answer with
      | some f' => exact counted _ w₁ (World.OnlyLogged.refl w₁)
      | none => exact counted _ w₁ (World.OnlyLogged.refl w₁)
    | fail e => exact counted _ w₁ (World.OnlyLogged.refl w₁)
    | panic p =>
      obtain ⟨w₂, htell, hlog⟩ := Act.tell_onlyLogged (ε := ε) .engine .error
        "save pass panicked" [("file", .text f.name), ("panic", .text p.message)] w₁
      simp only []
      rw [Act.bind_of_ok htell]
      exact counted _ w₂ hlog

/-- How a pass goes: its result, the save-file behind it, and the disk. -/
inductive PassRun (f : SaveFile ω) (s : Storage) (format : Format) (now : Nat)
    (onlyChanged : Bool) (w : World ω) : PassResult → SaveFile ω → Disk → Prop where
  | unread (e : Failure) (stop : ((f.readSnapshot : Act ω Failure Snapshot) w).1.IsStop) :
    PassRun f s format now onlyChanged w (.failed e) f w.disk
  | unchanged {snapshot : Snapshot} {w₁ : World ω}
    (read : (f.readSnapshot : Act ω Failure Snapshot) w = (.ok snapshot, w₁))
    (only : onlyChanged = true) (same : snapshot.changed (f.lastSave.map (·.snapshot)) = false) :
    PassRun f s format now onlyChanged w .unchanged f w.disk
  | unencoded (e : Failure) {snapshot : Snapshot} {w₁ : World ω}
    (read : (f.readSnapshot : Act ω Failure Snapshot) w = (.ok snapshot, w₁))
    (changed : onlyChanged = true → snapshot.changed (f.lastSave.map (·.snapshot)) = true) :
    PassRun f s format now onlyChanged w (.failed e) f w.disk
  /-- a backup was to be taken, but the save file was not written -/
  | unwritten (e : Failure) {snapshot : Snapshot} {w₁ : World ω} {data : ByteArray}
    (read : (f.readSnapshot : Act ω Failure Snapshot) w = (.ok snapshot, w₁))
    (found : w₁.disk = w.disk)
    (changed : onlyChanged = true → snapshot.changed (f.lastSave.map (·.snapshot)) = true)
    (encoded : format.encode snapshot = .ok data) :
    PassRun f s format now onlyChanged w (.failed e) f (f.backUp s w₁).2.disk
  | saved {snapshot : Snapshot} {w₁ : World ω} {data : ByteArray} {d : Disk}
    (read : (f.readSnapshot : Act ω Failure Snapshot) w = (.ok snapshot, w₁))
    (found : w₁.disk = w.disk)
    (changed : onlyChanged = true → snapshot.changed (f.lastSave.map (·.snapshot)) = true)
    (encoded : format.encode snapshot = .ok data) (regular : ∀ p, (f.backUp s w₁).1 ≠ .panic p)
    (puts : s.Puts (f.backUp s w₁).2.disk d (canonicalName f.name) data) :
    PassRun f s format now onlyChanged w .saved { f with lastSave := some ⟨snapshot, now⟩ } d

/-- A pass goes in one of five ways. -/
theorem pass_run (f : SaveFile ω) (s : Storage) (format : Format) (now : Nat)
    (onlyChanged : Bool) (hn : '/' ∉ f.name.toList) (w : World ω) :
    ∃ result f' w', (f.pass s format now onlyChanged : Act ω ε _) w = (.ok (result, f'), w') ∧
      PassRun f s format now onlyChanged w result f' w'.disk ∧ w.SameSetting w' := by
  obtain ⟨w', hpass, hrec⟩ := pass_apply (ε := ε) f s format now onlyChanged w
  have ha := hrec.alike
  have hread := readSnapshot_sameButVars (ε := Failure) f w
  refine ⟨_, _, w', hpass, ?_⟩
  rw [ha.disk]
  suffices PassRun f s format now onlyChanged w
      (f.resultOf (f.saveIfNeeded s format now onlyChanged w).1).1
      (f.resultOf (f.saveIfNeeded s format now onlyChanged w).1).2
      (f.saveIfNeeded s format now onlyChanged w).2.disk ∧
      w.SameSetting (f.saveIfNeeded s format now onlyChanged w).2 from
    ⟨this.1, this.2.trans ha.toSameSetting⟩
  rcases saveIfNeeded_cases f s format now onlyChanged w with
    ⟨hstop, hworld, hunread⟩ | ⟨snapshot, w₁, hr, ⟨only, same, heq⟩ | ⟨changed, heq⟩⟩
  · obtain ⟨e, he⟩ := f.exists_failed_of_isStop hstop
    rw [he, hworld, hread.disk]
    exact ⟨.unread e hunread, hread.toSameSetting⟩
  · rw [hr] at hread
    rw [heq, hread.disk]
    exact ⟨.unchanged hr only same, hread.toSameSetting⟩
  · -- reading changed variables alone, so the save starts from the same disk
    rw [hr] at hread
    have hset := hread.toSameSetting.trans (f.backUp_effect s hn w₁).2.toSameSetting
    rw [heq]
    rcases save_cases f s format snapshot now hn w₁ with
      ⟨e, -, hsave⟩ | ⟨data, encoded, ⟨hstop, halike⟩ | ⟨w₂, hsave, hno, hw₂, hputs⟩⟩
    · rw [hsave, hread.disk]
      exact ⟨.unencoded e hr changed, hread.toSameSetting⟩
    · obtain ⟨e, he⟩ := f.exists_failed_of_isStop (hstop.map some)
      rw [he, halike.disk]
      exact ⟨.unwritten e hr hread.disk changed encoded, hset.trans halike.toSameSetting⟩
    · rw [hsave]
      exact ⟨.saved hr hread.disk changed encoded hno hputs, hset.trans hw₂.toSameSetting⟩

theorem PassRun.effect {f f' : SaveFile ω} {s : Storage} {format : Format} {now : Nat}
    {onlyChanged : Bool} {w : World ω} {result : PassResult} {d : Disk}
    (h : PassRun f s format now onlyChanged w result f' d) (hn : '/' ∉ f.name.toList) :
    PassEffect f s format now onlyChanged w result f' d := by
  cases h with
  | unread e _ => exact .failed e .nothing
  | unchanged read only same => exact .unchanged read only same
  | unencoded e _ _ => exact .failed e .nothing
  | @unwritten e _ w₁ _ _ found _ _ => exact .failed e (found ▸ (f.backUp_effect s hn w₁).1)
  | @saved _ w₁ _ _ read found changed encoded _ puts =>
    exact .saved read changed encoded (found ▸ (f.backUp_effect s hn w₁).1) puts

/-- The result of a pass is one of three, each with its effect. -/
theorem pass_effect (f : SaveFile ω) (s : Storage) (format : Format) (now : Nat)
    (onlyChanged : Bool) (hn : '/' ∉ f.name.toList) (w : World ω) :
    ∃ result f' w', (f.pass s format now onlyChanged : Act ω ε _) w = (.ok (result, f'), w') ∧
      PassEffect f s format now onlyChanged w result f' w'.disk ∧ w.SameSetting w' := by
  obtain ⟨result, f', w', hpass, hrun, hset⟩ := pass_run (ε := ε) f s format now onlyChanged hn w
  exact ⟨result, f', w', hpass, hrun.effect hn, hset⟩

/-! ### What follows from the effect of a pass -/

variable {f f' : SaveFile ω} {s : Storage} {format : Format} {now : Nat} {onlyChanged : Bool}
variable {w : World ω} {result : PassResult} {d : Disk}

/-- A pass changes nothing of a save-file but what it remembers. -/
theorem PassEffect.settings (h : PassEffect f s format now onlyChanged w result f' d) :
    f'.settings = f.settings ∧ f'.accessors = f.accessors := by
  cases h <;> exact ⟨rfl, rfl⟩

/-- A pass changes no save file but its own. -/
theorem PassEffect.content?_other (h : PassEffect f s format now onlyChanged w result f' d)
    {other : String} (ho : '/' ∉ other.toList) (hne : other ≠ f.name) :
    s.content? d (canonicalName other) = s.content? w.disk (canonicalName other) := by
  cases h with
  | saved _ _ _ backup puts =>
    rw [puts.others _ (isEntryName_canonicalName ho) fun e => hne (canonicalName_injective e)]
    exact backup.content?_canonicalName ho
  | unchanged => rfl
  | failed e backup => exact backup.content?_canonicalName ho

/-- A pass that did not save left the save-file and its save file as they were. -/
theorem PassEffect.of_not_saved (h : PassEffect f s format now onlyChanged w result f' d)
    (hn : '/' ∉ f.name.toList) (hr : result ≠ .saved) :
    f' = f ∧ s.content? d (canonicalName f.name) = s.content? w.disk (canonicalName f.name) := by
  cases h with
  | saved => exact absurd rfl hr
  | unchanged => exact ⟨rfl, rfl⟩
  | failed e backup => exact ⟨rfl, backup.content?_canonicalName hn⟩

end SaveFile

end Keepsake
