import Keepsake.Proofs.Entry
/-!
# What becomes of a temporary file

A temporary file is made where nothing was (`Storage.Staged`). It can only go two ways from there:
it is moved onto a file, which is then as if its bytes had been written at once, or it is discarded,
and the disk is the one from before. Neither way leaves anything of it. Where a write is struck
between its two steps it goes the second way.
-/

namespace Keepsake

variable {ω : Type}

namespace Disk

theorem SameFolders.symm {d d' : Disk} (h : SameFolders d d') : SameFolders d' d :=
  ⟨h.here.symm, fun path => (h.folders path).symm⟩

/-- Putting a new file somewhere and taking it away again changes nothing. -/
theorem dropFile_setFile {d : Disk} {path : Path} {name : String} (data : ByteArray)
    (h : d.file? path name = none) : (d.setFile path name data).dropFile path name = d := by
  unfold setFile
  split
  · next f hf =>
    have hfree : f.get? name = none := by simpa [file?, hf] using h
    have herase : (f.insert name data).erase name = f := by
      refine NameMap.ext_get? fun other => ?_
      rw [NameMap.get?_erase, NameMap.get?_insert]
      by_cases he : name = other
      · rw [if_pos he, ← he, hfree]
      · rw [if_neg he, if_neg he]
    have hback : (d.folders.insert path.text (f.insert name data)).insert path.text f
        = d.folders := by
      refine NameMap.ext_get? fun other => ?_
      rw [NameMap.get?_insert, NameMap.get?_insert]
      by_cases he : path.text = other
      · rw [if_pos he, ← he]
        exact hf.symm
      · rw [if_neg he, if_neg he]
    unfold dropFile
    rw [folder?_setFolder, if_pos rfl]
    simp only [herase]
    rw [setFolder, setFolder, hback]
  · next hno => simp [dropFile, hno]

theorem write_eq_ok {d d' : Disk} {target : Except DiskFault Place} {data : ByteArray}
    (h : d.write target data = .ok d') :
    ∃ path file, target = .ok (.entry path file) ∧ (d.folder? path).isSome = true ∧
      d' = d.setFile path file data := by
  unfold write at h
  split at h
  · cases h
  · cases h
  · next path file =>
    split at h
    · next hf => exact ⟨path, file, rfl, hf, by cases h; rfl⟩
    · cases h

end Disk

namespace Storage

/-! ## Its place -/

theorem temporaryPlace_of_sameFolders {s : Storage} {d d' : Disk} {temporary : String}
    {place : Place} (h : Disk.SameFolders d d')
    (hp : s.temporaryPlace d temporary = .ok place) :
    s.temporaryPlace d' temporary = .ok place := by
  unfold temporaryPlace at hp ⊢
  split at hp
  · next hplain =>
    rw [if_pos hplain]
    cases hdir : s.home d with
    | error e =>
      rw [hdir] at hp
      cases hp
    | ok dir =>
      rw [home_of_sameFolders h hdir, ← hdir]
      exact hp
  · next hplain =>
    rw [if_neg hplain]
    exact Disk.locateIn_of_sameFolders h hp

/-- A name that is chosen is one under which nothing is there. -/
theorem isTaken_of_freshTemporary? {s : Storage} {d : Disk} {name temporary : String} {n : Nat}
    {tries : Nat} (h : s.freshTemporary? d name n tries = some temporary) :
    d.isTaken (s.temporaryPlace d temporary) = false := by
  induction tries generalizing n with
  | zero => cases h
  | succ tries ih =>
    simp only [freshTemporary?] at h
    split at h
    · exact ih h
    · next hfree =>
      cases h
      simpa using hfree

theorem isTaken_of_chooseTemporary {s : Storage} {d : Disk} {name temporary : String}
    (h : s.chooseTemporary d name = .ok temporary) :
    d.isTaken (s.temporaryPlace d temporary) = false := by
  unfold chooseTemporary at h
  split at h
  · cases h
  · split at h
    · next hfresh =>
      cases h
      exact isTaken_of_freshTemporary? hfresh
    · cases h

/-! ## Its way -/

/-- A temporary file has been made where nothing was. -/
inductive Staged (s : Storage) (d : Disk) (data : ByteArray) : String → Disk → Prop where
  | made {temporary file : String} {dir : Path}
    (place : s.temporaryPlace d temporary = .ok (.entry dir file))
    (there : (d.folder? dir).isSome = true) (fresh : d.file? dir file = none) :
    Staged s d data temporary (d.setFile dir file data)

namespace Staged

variable {s : Storage} {d d' : Disk} {data : ByteArray} {temporary : String}

theorem sameFolders (h : s.Staged d data temporary d') : Disk.SameFolders d d' := by
  cases h with
  | made => exact Disk.sameFolders_setFile d _ _ data

/-- Deleted, it has never been. -/
theorem delete_eq (h : s.Staged d data temporary d') :
    d'.delete (s.temporaryPlace d' temporary) = .ok d := by
  have hsame := h.sameFolders
  cases h with
  | made place there fresh =>
    rw [temporaryPlace_of_sameFolders hsame place, Disk.delete, Disk.dropFile_setFile data fresh]

/-- Moved onto a file, it is as if its bytes had been written there. -/
theorem rename_eq (h : s.Staged d data temporary d') (target : Except DiskFault Place) :
    d'.rename (s.temporaryPlace d' temporary) target = d.write target data := by
  have hsame := h.sameFolders
  cases h with
  | made place there fresh =>
    rw [temporaryPlace_of_sameFolders hsame place]
    unfold Disk.rename Disk.write
    simp only [Disk.file?_setFile_self there, Disk.dropFile_setFile data fresh, hsame.folders]

/-- Discarding it takes the disk back to what it was. -/
theorem discard_apply {w : World ω} (h : s.Staged w.disk data temporary d') :
    s.discard temporary { w with disk := d' } = (.ok (), w) := by
  unfold discard Act.onDisk
  simp only [h.delete_eq]

/-- A write that is struck now leaves nothing behind. -/
theorem struck_apply {w : World ω} (h : s.Staged w.disk data temporary d')
    {late : Outcome Failure Unit} (hlate : late.IsStop) :
    Act.cleaning (s.discard temporary : Act ω Failure Unit) (Act.ofOutcome late)
      { w with disk := d' } = (late, w) := by
  rw [Act.cleaning_of_stop (Act.ofOutcome_apply late _) hlate, h.discard_apply]

/-- Committing it writes its bytes, and does nothing if these cannot be written. -/
theorem commit_apply {w : World ω} (h : s.Staged w.disk data temporary d') (name : String) :
    s.commit temporary name { w with disk := d' }
      = Act.onDisk (fun d => orFail (s.renamingTask name) (d.write (s.locate d' name) data)) w := by
  unfold commit
  cases hw : w.disk.write (s.locate d' name) data with
  | ok d'' =>
    have hmoved : Act.onDisk (fun d => orFail (s.renamingTask name)
        (d.rename (s.temporaryPlace d temporary) (s.locate d name))) { w with disk := d' }
          = (.ok (), { w with disk := d'' }) := by
      simp [Act.onDisk, h.rename_eq, hw, orFail]
    rw [Act.cleaning_of_ok hmoved]
    simp [Act.onDisk, hw, orFail]
  | error e =>
    have hmoved : Act.onDisk (fun d => orFail (s.renamingTask name)
        (d.rename (s.temporaryPlace d temporary) (s.locate d name))) { w with disk := d' }
          = (.fail (failure (s.renamingTask name) e), { w with disk := d' }) := by
      simp [Act.onDisk, h.rename_eq, hw, orFail]
    rw [Act.cleaning_of_stop hmoved (Outcome.isStop_fail _), h.discard_apply]
    simp [Act.onDisk, hw, orFail]

end Staged

/-- Under the name that is chosen the temporary file is made, or its place is refused. -/
theorem stage_of_chosen {s : Storage} {name temporary : String} {w : World ω}
    (hc : s.chooseTemporary w.disk name = .ok temporary) (data : ByteArray) :
    (∃ d', s.stage data name w = (.ok temporary, { w with disk := d' }) ∧
        s.Staged w.disk data temporary d') ∨
      ∃ e, w.disk.write (s.temporaryPlace w.disk temporary) data = .error e ∧
        s.stage data name w = (.fail (s.stagingFailure name e), w) := by
  have hfree := isTaken_of_chooseTemporary hc
  unfold stage
  rw [Act.get_bind, hc, Act.ofExcept_ok_bind]
  cases hw : w.disk.write (s.temporaryPlace w.disk temporary) data with
  | error e =>
    refine Or.inr ⟨e, rfl, ?_⟩
    rw [Act.bind_apply]
    simp [Act.onDisk, hw]
  | ok d' =>
    obtain ⟨dir, file, hplace, hthere, rfl⟩ := Disk.write_eq_ok hw
    refine Or.inl ⟨_, ?_, .made hplace hthere ?_⟩
    · rw [Act.bind_apply]
      simp [Act.onDisk, hw]
    · rw [hplace] at hfree
      simp only [Disk.isTaken, Bool.or_eq_false_iff] at hfree
      simpa using hfree.1

/-- Making a temporary file has its whole effect, or none. -/
theorem stage_cases (s : Storage) (data : ByteArray) (name : String) (w : World ω) :
    (∃ temporary d', s.stage data name w = (.ok temporary, { w with disk := d' }) ∧
        s.Staged w.disk data temporary d') ∨
      ∃ e, s.stage data name w = (.fail e, w) := by
  cases hc : s.chooseTemporary w.disk name with
  | error e =>
    refine Or.inr ⟨e, ?_⟩
    rw [stage, Act.get_bind, hc]
    rfl
  | ok temporary =>
    rcases stage_of_chosen hc data with ⟨d', hstage⟩ | ⟨e, -, hstage⟩
    · exact Or.inl ⟨temporary, d', hstage⟩
    · exact Or.inr ⟨_, hstage⟩

end Storage

end Keepsake
