import Keepsake.Proofs.FreeName
import Keepsake.Proofs.Restore
/-!
# What becomes of the versions of a save file

A save copies the present save file before it replaces it, and a load copies it before it reads
it. With timestamped backups the copy gets a name that was free, so it takes the place of no other
backup, and whatever a save file has once held stays in the folder: in the save file or in a
backup (`Storage.KeepsVersions`). Of a rotating backup only the last is there.
-/

namespace Keepsake

variable {ω : Type}

/-! ## Copies -/

namespace SaveFile

variable {f : SaveFile ω} {s : Storage} {w : World ω}

/-- A backup that is taken now does not fail. -/
def Copies (f : SaveFile ω) (s : Storage) (w : World ω) : Prop := ∀ e, (f.backUp s w).1 ≠ .fail e

/-- The copy that a load takes, if it comes to one, does not fail. -/
def LoadCopies (f : SaveFile ω) (s : Storage) (w : World ω) : Prop :=
  ∀ w₁, (s.probe (canonicalName f.name) : Act ω Failure Bool) w = (.ok true, w₁) → f.Copies s w₁

theorem backUp_of_content?_eq_none (h : s.content? w.disk (canonicalName f.name) = none) :
    (f.backUp s w).2.disk = w.disk := by
  unfold backUp
  cases takeBackup_probed s f.name f.settings.backupMode w.now w with
  | unwanted probed _ run | struck probed _ run =>
    rw [run]
    exact probed.alike.disk
  | copying _ there =>
    rw [Storage.contains_eq, h] at there
    cases there

/-- What there is is copied to the target, unless that stops. -/
theorem backUp_of_content? (hn : '/' ∉ f.name.toList) {data : ByteArray} {target : String}
    (hc : s.content? w.disk (canonicalName f.name) = some data)
    (ht : backupTarget s w.disk f.name f.settings.backupMode w.now = some target) :
    (∃ w', f.backUp s w = (.ok (some target), w') ∧ s.Puts w.disk w'.disk target data) ∨
      (f.backUp s w).1.IsStop ∧ (f.backUp s w).2.disk = w.disk := by
  unfold backUp
  cases takeBackup_probed s f.name f.settings.backupMode w.now w with
  | unwanted _ reason =>
    rw [reason (by rw [Storage.contains_eq, hc]; rfl)] at ht
    cases ht
  | struck probed _ run =>
    rw [run]
    exact Or.inr ⟨Outcome.isStop_panic _, probed.alike.disk⟩
  | @copying chosenTarget w₁ probed _ chosen run =>
    obtain rfl : chosenTarget = target := Option.some.inj (chosen.symm.trans ht)
    have hdisk := probed.alike.disk
    have family := isBackupName_of_backupTarget ht
    rw [run]
    rcases Storage.copy_cases (s := s) (isEntryName_canonicalName hn)
      (isEntryName_of_isBackupName hn family) (canonicalName_ne_of_isBackupName family f.name) w₁
      with ⟨w', copied, h, -, hcopied, hputs⟩ | ⟨hstop, ha⟩
    · rw [hdisk] at hcopied hputs
      obtain rfl : data = copied := Option.some.inj (hc.symm.trans hcopied)
      refine Or.inl ⟨w', ?_, hputs⟩
      rw [Act.bind_of_ok h]
      rfl
    · obtain ⟨hstop', hworld⟩ := Act.bind_of_stop (fun _ => Pure.pure (some chosenTarget)) hstop
      exact Or.inr ⟨hstop', hworld ▸ ha.disk.trans hdisk⟩

end SaveFile

/-! ## Versions -/

namespace Storage

variable {s : Storage} {name : String} {d d' d₁ d₂ d₃ : Disk}

/-- A timestamped backup of the save-file is there and holds some bytes. -/
def HoldsBackup (s : Storage) (name : String) (d : Disk) (data : ByteArray) : Prop :=
  ∃ stamp counter, s.content? d (withCounter (timestampedName name stamp) counter) = some data

/-- Nothing is lost of a save-file: neither what its save file holds nor any timestamped backup. -/
structure KeepsVersions (s : Storage) (name : String) (d d' : Disk) : Prop where
  content : ∀ data, s.content? d (canonicalName name) = some data →
    s.content? d' (canonicalName name) = some data ∨ s.HoldsBackup name d' data
  backups : ∀ stamp counter data,
    s.content? d (withCounter (timestampedName name stamp) counter) = some data →
      s.content? d' (withCounter (timestampedName name stamp) counter) = some data

namespace KeepsVersions

theorem refl (s : Storage) (name : String) (d : Disk) : s.KeepsVersions name d d :=
  ⟨fun _ => Or.inl, fun _ _ _ => id⟩

theorem holdsBackup (h : s.KeepsVersions name d d') {data : ByteArray}
    (hb : s.HoldsBackup name d data) : s.HoldsBackup name d' data := by
  obtain ⟨stamp, counter, hc⟩ := hb
  exact ⟨stamp, counter, h.backups stamp counter data hc⟩

theorem trans (h : s.KeepsVersions name d₁ d₂) (h' : s.KeepsVersions name d₂ d₃) :
    s.KeepsVersions name d₁ d₃ where
  content data hc := by
    rcases h.content data hc with hc | hb
    · exact h'.content data hc
    · exact Or.inr (h'.holdsBackup hb)
  backups stamp counter data hc := h'.backups stamp counter data (h.backups stamp counter data hc)

theorem of_sameEntries (hn : '/' ∉ name.toList) (h : s.SameEntries (IsLastingName name) d d') :
    s.KeepsVersions name d d' where
  content data hc := by
    rw [h.content?_eq .canonical (isEntryName_canonicalName hn)]
    exact Or.inl hc
  backups stamp counter data hc := by
    rw [h.content?_eq (.backup (.timestamped stamp counter))
      (isEntryName_timestamped hn stamp counter)]
    exact hc

/-- A save file may be replaced when a backup holds what it held. -/
theorem write (h : s.KeepsVersions name d d₁) (hn : '/' ∉ name.toList)
    (hb : ∀ data, s.content? d (canonicalName name) = some data → s.HoldsBackup name d₁ data)
    {new : ByteArray} (hputs : s.Puts d₁ d₂ (canonicalName name) new) :
    s.KeepsVersions name d d₂ := by
  have hkept : ∀ stamp counter, s.content? d₂ (withCounter (timestampedName name stamp) counter)
      = s.content? d₁ (withCounter (timestampedName name stamp) counter) := fun stamp counter =>
    hputs.others _ (isEntryName_timestamped hn stamp counter)
      (canonicalName_ne_of_isBackupName (.timestamped stamp counter) name).symm
  refine ⟨fun data hc => Or.inr ?_, fun stamp counter data hc => ?_⟩
  · obtain ⟨stamp, counter, hc⟩ := hb data hc
    exact ⟨stamp, counter, (hkept stamp counter).trans hc⟩
  · exact (hkept stamp counter).trans (h.backups stamp counter data hc)

end KeepsVersions

end Storage

namespace SaveFile

variable {f f' : SaveFile ω} {s : Storage} {format : Format} {now : Nat} {onlyChanged : Bool}
variable {w : World ω} {result : PassResult} {d : Disk}

/-- A timestamped backup adds to what is there, and is taken unless the copy panics. -/
theorem backUp_keepsVersions (hn : '/' ∉ f.name.toList)
    (hmode : f.settings.backupMode = .timestamped) (hcopy : f.Copies s w) :
    s.KeepsVersions f.name w.disk (f.backUp s w).2.disk ∧
      ((∃ p, (f.backUp s w).1 = .panic p) ∨
        ∀ data, s.content? w.disk (canonicalName f.name) = some data →
          s.HoldsBackup f.name (f.backUp s w).2.disk data) := by
  cases hc : s.content? w.disk (canonicalName f.name) with
  | none => exact ⟨backUp_of_content?_eq_none hc ▸ .refl s f.name w.disk, Or.inr nofun⟩
  | some data =>
    obtain ⟨counter, ht, hfree, -⟩ := exists_backupTarget hn s w.disk w.now
    rw [Storage.contains_eq] at hfree
    rw [← hmode] at ht
    rcases backUp_of_content? hn hc ht with ⟨w', heq, hputs⟩ | ⟨hstop, hdisk⟩
    · rw [heq]
      refine ⟨⟨fun data' hc' => Or.inl ?_, fun stamp' counter' data' hc' => ?_⟩, Or.inr ?_⟩
      · rw [hputs.others _ (isEntryName_canonicalName hn)
          (canonicalName_ne_of_isBackupName (.timestamped w.now counter) f.name)]
        exact hc'
      · -- the name was free, so no backup stood there
        rw [hputs.others _ (isEntryName_timestamped hn stamp' counter') ?_]
        · exact hc'
        · intro heq
          rw [heq] at hc'
          rw [hc'] at hfree
          cases hfree
      · rintro data' ⟨⟩
        exact ⟨w.now, counter, hputs.written⟩
    · refine ⟨hdisk ▸ .refl s f.name w.disk, Or.inl ?_⟩
      cases ho : (f.backUp s w).1 with
      | ok taken => exact absurd ho (hstop taken)
      | fail e => exact absurd ho (hcopy e)
      | panic p => exact ⟨p, rfl⟩

/-- A rotating backup that was taken holds what the save file held. -/
theorem content?_rotatingName_of_backUp (hn : '/' ∉ f.name.toList)
    (hmode : f.settings.backupMode = .rotating) {taken : Option String}
    (hcopied : (f.backUp s w).1 = .ok taken) {data : ByteArray}
    (hc : s.content? w.disk (canonicalName f.name) = some data) :
    s.content? (f.backUp s w).2.disk (rotatingName f.name) = some data := by
  have ht : backupTarget s w.disk f.name f.settings.backupMode w.now
      = some (rotatingName f.name) := by
    rw [hmode]
    rfl
  rcases backUp_of_content? hn hc ht with ⟨w', heq, hputs⟩ | ⟨hstop, -⟩
  · rw [heq]
    exact hputs.written
  · exact absurd hcopied (hstop taken)

/-! ## Passes and loads -/

/-- The copy that a pass takes, if it comes to one, does not fail. -/
def PassCopies (f : SaveFile ω) (s : Storage) (format : Format) (onlyChanged : Bool)
    (w : World ω) : Prop :=
  ∀ snapshot w₁ data, (f.readSnapshot : Act ω Failure Snapshot) w = (.ok snapshot, w₁) →
    (onlyChanged = true → snapshot.changed (f.lastSave.map (·.snapshot)) = true) →
      format.encode snapshot = .ok data → f.Copies s w₁

/-- However a pass goes, with timestamped backups no version is lost. -/
theorem PassRun.keepsVersions (h : f.PassRun s format now onlyChanged w result f' d)
    (hn : '/' ∉ f.name.toList) (hmode : f.settings.backupMode = .timestamped)
    (hcopies : f.PassCopies s format onlyChanged w) : s.KeepsVersions f.name w.disk d := by
  cases h with
  | unread => exact .refl s f.name w.disk
  | unchanged => exact .refl s f.name w.disk
  | unencoded => exact .refl s f.name w.disk
  | @unwritten e snapshot w₁ data read found changed encoded =>
    have hcopy := hcopies snapshot w₁ data read changed encoded
    exact found ▸ (backUp_keepsVersions hn hmode hcopy).1
  | @saved snapshot w₁ data _ read found changed encoded regular puts =>
    have hcopy := hcopies snapshot w₁ data read changed encoded
    obtain ⟨hkeeps, ⟨p, hp⟩ | htaken⟩ := backUp_keepsVersions hn hmode hcopy
    · exact absurd hp (regular p)
    · exact found ▸ hkeeps.write hn htaken puts

/-- Behind a save the rotating backup holds what the save replaced. -/
theorem PassRun.content?_rotatingName (h : f.PassRun s format now onlyChanged w .saved f' d)
    (hn : '/' ∉ f.name.toList) (hmode : f.settings.backupMode = .rotating)
    (hcopies : f.PassCopies s format onlyChanged w) {data : ByteArray}
    (hc : s.content? w.disk (canonicalName f.name) = some data) :
    s.content? d (rotatingName f.name) = some data := by
  cases h with
  | @saved snapshot w₁ written _ read found changed encoded regular puts =>
    rw [puts.others _ (isEntryName_rotatingName hn)
      (canonicalName_ne_of_isBackupName .rotating f.name).symm]
    cases ho : (f.backUp s w₁).1 with
    | ok taken => exact content?_rotatingName_of_backUp hn hmode ho (found ▸ hc)
    | fail e => exact absurd ho (hcopies snapshot w₁ written read changed encoded e)
    | panic p => exact absurd ho (regular p)

theorem load_keepsVersions (hn : '/' ∉ f.name.toList)
    (hmode : f.settings.backupMode = .timestamped) (hcopy : f.LoadCopies s w) (format : Format) :
    s.KeepsVersions f.name w.disk (f.load s format w).2.disk := by
  rcases f.load_disk s format w with hdisk | ⟨w₁, hfound, hbefore, hdisk⟩
  · exact hdisk ▸ .refl s f.name w.disk
  · rw [hdisk, ← hbefore]
    exact (backUp_keepsVersions hn hmode (hcopy w₁ hfound)).1

/-- Behind a load the rotating backup holds what the save file holds and the load could read. -/
theorem content?_rotatingName_of_load (hn : '/' ∉ f.name.toList)
    (hmode : f.settings.backupMode = .rotating) {w₁ : World ω} {taken : Option String}
    (hfound : (s.probe (canonicalName f.name) : Act ω Failure Bool) w = (.ok true, w₁))
    (hcopied : (f.backUp s w₁).1 = .ok taken) {data : ByteArray}
    (hc : s.content? w.disk (canonicalName f.name) = some data) (format : Format) :
    s.content? (f.load s format w).2.disk (rotatingName f.name) = some data := by
  have hbefore : w₁.disk = w.disk := by
    have hwithin := Storage.within_probe (ε := Failure) (F := .butVars) s (canonicalName f.name) w
    rw [hfound] at hwithin
    exact hwithin.disk
  rw [load_disk_of_found hfound]
  exact content?_rotatingName_of_backUp hn hmode hcopied (hbefore ▸ hc)

end SaveFile

end Keepsake
