import Keepsake.Backup
import Keepsake.Proofs.Content
/-!
# What a backup's probes come to

Before a save file is copied the storage is only asked which files are there. Probes change nothing
but the number of calls, so they all find the disk as it was at first: the name of the backup is a
function of that disk (`backupTarget`), and all that can come between is a panic that strikes a
probe (`Probed`).
-/

namespace Keepsake

variable {ω ε : Type}

/-- The name that the search for a free name comes to. -/
def freeName (taken : String → Bool) (base : String) (counter : Nat) : Nat → String
  | 0 => withCounter base counter
  | tries + 1 =>
    if taken (withCounter base counter) then freeName taken base (counter + 1) tries
    else withCounter base counter

/-- The name of the next backup on a disk. -/
def backupTarget (s : Storage) (d : Disk) (name : String) (mode : BackupMode) (stamp : Stamp) :
    Option String :=
  match mode with
  | .off => none
  | .rotating => some (rotatingName name)
  | .timestamped =>
    some (freeName (s.contains d) (timestampedName name stamp) 0 (d.fileCount + 1))

/-- The search finds what the disk tells, or a panic strikes one of its probes. -/
theorem findFreeName_cases (s : Storage) (base : String) (counter tries : Nat) (w : World ω) :
    ∃ w', w.OnlyCalled w' ∧
      ((findFreeName s base counter tries : Act ω ε String) w
          = (.ok (freeName (s.contains w.disk) base counter tries), w') ∨
        ¬s.Calm w ∧ ∃ p, (findFreeName s base counter tries : Act ω ε String) w = (.panic p, w')) := by
  induction tries generalizing counter w with
  | zero => exact ⟨w, .refl w, Or.inl rfl⟩
  | succ tries ih =>
    unfold findFreeName freeName
    rcases s.probe_cases (ε := ε) (withCounter base counter) w with hp | ⟨hcalm, p, hp⟩
    · rw [Act.bind_of_ok hp]
      split
      · -- the name is taken, and the next counter is tried behind one more call
        obtain ⟨w', hcalled, h⟩ := ih (counter + 1) w.called
        refine ⟨w', w.onlyCalled_called.trans hcalled, h.imp_right fun ⟨hstruck, hpanic⟩ => ?_⟩
        exact ⟨fun hcalm => hstruck hcalm.called, hpanic⟩
      · exact ⟨w.called, w.onlyCalled_called, Or.inl rfl⟩
    · rw [Act.bind_apply, hp]
      exact ⟨w.called, w.onlyCalled_called, Or.inr ⟨hcalm, p, rfl⟩⟩

theorem nextBackup_cases (s : Storage) (name : String) (mode : BackupMode) (stamp : Stamp)
    (w : World ω) :
    ∃ w', w.OnlyCalled w' ∧
      ((nextBackup s name mode stamp : Act ω ε _) w
          = (.ok (backupTarget s w.disk name mode stamp), w') ∨
        ¬s.Calm w ∧ ∃ p, (nextBackup s name mode stamp : Act ω ε _) w = (.panic p, w')) := by
  cases mode with
  | off => exact ⟨w, .refl w, Or.inl rfl⟩
  | rotating => exact ⟨w, .refl w, Or.inl rfl⟩
  | timestamped =>
    obtain ⟨w', hcalled, h⟩ := findFreeName_cases (ε := ε) s (timestampedName name stamp) 0
      (w.disk.fileCount + 1) w
    refine ⟨w', hcalled, ?_⟩
    simp only [nextBackup, Act.get_bind]
    rcases h with h | ⟨hcalm, p, h⟩
    · rw [Act.bind_of_ok h]
      exact Or.inl rfl
    · rw [Act.bind_apply, h]
      exact Or.inr ⟨hcalm, p, rfl⟩

/-- The only name that is answered is the one that the disk tells. -/
theorem nextBackup_eq_ok {s : Storage} {name : String} {mode : BackupMode} {stamp : Stamp}
    {w w' : World ω} {target : Option String}
    (h : (nextBackup s name mode stamp : Act ω ε _) w = (.ok target, w')) :
    backupTarget s w.disk name mode stamp = target := by
  obtain ⟨w₁, -, hok | ⟨-, p, hpanic⟩⟩ := nextBackup_cases (ε := ε) s name mode stamp w
  · rw [hok] at h
    cases h
    rfl
  · rw [hpanic] at h
    cases h

/-- How far taking a backup comes by its probes. -/
inductive Probed (s : Storage) (name : String) (mode : BackupMode) (stamp : Stamp) (w : World ω) :
    Prop where
  /-- there is no save file, or no backups are wanted -/
  | unwanted {w' : World ω} (probed : w.OnlyCalled w')
    (reason : s.contains w.disk (canonicalName name) = true → mode = .off)
    (run : takeBackup s name mode stamp w = (.ok none, w'))
  /-- a panic struck a probe -/
  | struck {p : Panic} {w' : World ω} (probed : w.OnlyCalled w') (struck : ¬s.Calm w)
    (run : takeBackup s name mode stamp w = (.panic p, w'))
  /-- all that is left to do is to copy the save file -/
  | copying {target : String} {w' : World ω} (probed : w.OnlyCalled w')
    (there : s.contains w.disk (canonicalName name) = true)
    (chosen : backupTarget s w.disk name mode stamp = some target)
    (run : takeBackup s name mode stamp w
      = (do s.copy (canonicalName name) target; pure (some target) : Act ω Failure _) w')

theorem takeBackup_probed (s : Storage) (name : String) (mode : BackupMode) (stamp : Stamp)
    (w : World ω) : Probed s name mode stamp w := by
  by_cases hoff : mode = .off
  · refine .unwanted (.refl w) (fun _ => hoff) ?_
    rw [takeBackup, if_pos hoff]
    rfl
  · have hrun : takeBackup s name mode stamp w = _ := congrFun (if_neg hoff) w
    rcases s.probe_cases (ε := Failure) (canonicalName name) w with hp | ⟨hcalm, p, hp⟩
    · rw [Act.bind_of_ok hp] at hrun
      cases hthere : s.contains w.disk (canonicalName name) with
      | false =>
        rw [hthere, if_neg Bool.false_ne_true] at hrun
        exact .unwanted w.onlyCalled_called (fun h => by rw [hthere] at h; cases h) hrun
      | true =>
        rw [hthere, if_pos rfl] at hrun
        obtain ⟨w', hcalled, h⟩ := nextBackup_cases (ε := Failure) s name mode stamp w.called
        have hcalled' := w.onlyCalled_called.trans hcalled
        rcases h with h | ⟨hcalm, p, h⟩
        · rw [Act.bind_of_ok h, World.called_disk] at hrun
          cases htarget : backupTarget s w.disk name mode stamp with
          | none =>
            have hmode : mode = .off := by
              cases mode with
              | off => rfl
              | rotating => cases htarget
              | timestamped => cases htarget
            exact absurd hmode hoff
          | some target =>
            rw [htarget] at hrun
            exact .copying hcalled' hthere htarget hrun
        · rw [Act.bind_apply, h] at hrun
          exact .struck hcalled' (fun hc => hcalm hc.called) hrun
    · rw [Act.bind_apply, hp] at hrun
      exact .struck w.onlyCalled_called hcalm hrun

end Keepsake
