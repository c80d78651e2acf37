import Keepsake.Backup
import Keepsake.Proofs.Content
import Keepsake.Proofs.Moment
/-!
# Names of save files and backups do not meet

The name of a save file ends in `v`, that of a rotating backup in `B`, and that of a timestamped
backup in a digit. So no backup, of whatever save-file, has the name of a save file; and a save
file has its name from one save-file only.
-/

namespace Keepsake

/-! ## Last characters -/

theorem getLast?_canonicalName (name : String) :
    (canonicalName name).toList.getLast? = some 'v' := by
  simp [canonicalName, saveSuffix]

theorem getLast?_rotatingName (name : String) : (rotatingName name).toList.getLast? = some 'B' := by
  simp [rotatingName, rotatingSuffix]

/-- A timestamped backup ends in a digit. -/
theorem getLast?_withCounter (name : String) (stamp : Stamp) (counter : Nat) :
    ∃ c, (withCounter (timestampedName name stamp) counter).toList.getLast? = some c ∧
      ∀ x : Char, x.isDigit = false → c ≠ x := by
  unfold withCounter
  split
  · refine ⟨Stamp.digit stamp.second, ?_, fun x hx => Stamp.digit_ne_of_not_isDigit _ hx⟩
    simp [timestampedName, Stamp.compactChars, Stamp.twoDigits]
  · have hne := Decimal.digitChars_ne_nil counter
    refine ⟨(Decimal.digitChars counter).getLast hne, ?_, ?_⟩
    · simp [Decimal.text, List.getLast?_cons, List.getLast?_eq_some_getLast hne]
    · intro x hx e
      have hdigit := Decimal.isDigit_of_mem_digitChars (List.getLast_mem hne)
      rw [e, hx] at hdigit
      cases hdigit

/-! ## Families -/

/-- The names of the backups of a save-file. -/
inductive IsBackupName (name : String) : String → Prop where
  | rotating : IsBackupName name (rotatingName name)
  | timestamped (stamp : Stamp) (counter : Nat) :
    IsBackupName name (withCounter (timestampedName name stamp) counter)

/-- No save file has the name of a backup. -/
theorem canonicalName_ne_of_isBackupName {name file : String} (h : IsBackupName name file)
    (other : String) : canonicalName other ≠ file := by
  intro e
  have hv := getLast?_canonicalName other
  rw [e] at hv
  cases h with
  | rotating =>
    rw [getLast?_rotatingName] at hv
    cases hv
  | timestamped stamp counter =>
    obtain ⟨c, hc, hne⟩ := getLast?_withCounter name stamp counter
    rw [hc] at hv
    exact hne 'v' (by decide) (Option.some.inj hv)

/-- Different save-files have different save files. -/
theorem canonicalName_injective {a b : String} (h : canonicalName a = canonicalName b) : a = b := by
  have h' := congrArg String.toList h
  exact String.toList_inj.1 (by simpa [canonicalName] using h')

/-! ## Entry names -/

theorem isEntryName_of_long {name : String} (hl : 2 < name.toList.length) (hs : '/' ∉ name.toList) :
    IsEntryName name := by
  refine ⟨?_, ?_, ?_, hs⟩ <;> rintro rfl <;> simp at hl

theorem isEntryName_canonicalName {name : String} (h : '/' ∉ name.toList) :
    IsEntryName (canonicalName name) := by
  refine isEntryName_of_long ?_ ?_
  · simp [canonicalName, saveSuffix]
  · simp [canonicalName, saveSuffix, h]

theorem isEntryName_rotatingName {name : String} (h : '/' ∉ name.toList) :
    IsEntryName (rotatingName name) := by
  refine isEntryName_of_long ?_ ?_
  · simp [rotatingName, rotatingSuffix]
  · simp [rotatingName, rotatingSuffix, h]

theorem isEntryName_timestamped {name : String} (h : '/' ∉ name.toList) (stamp : Stamp)
    (counter : Nat) : IsEntryName (withCounter (timestampedName name stamp) counter) := by
  have hslash : ∀ n, '/' ≠ Stamp.digit n :=
    fun n e => Stamp.digit_ne_of_not_isDigit n (by decide) e.symm
  have hstamp : '/' ∉ (timestampedName name stamp).toList := by
    simp [timestampedName, canonicalName, saveSuffix, Stamp.compactChars, Stamp.twoDigits, h,
      hslash]
  refine isEntryName_of_long ?_ ?_
  · unfold withCounter
    split <;> simp [timestampedName, canonicalName, saveSuffix] <;> omega
  · unfold withCounter
    split
    · exact hstamp
    · have hcounter : '/' ∉ Decimal.digitChars counter :=
        fun hc => absurd (Decimal.isDigit_of_mem_digitChars hc) (by decide)
      simp [hstamp, Decimal.text, hcounter]

theorem isEntryName_of_isBackupName {name file : String} (hn : '/' ∉ name.toList)
    (h : IsBackupName name file) : IsEntryName file := by
  cases h with
  | rotating => exact isEntryName_rotatingName hn
  | timestamped stamp counter => exact isEntryName_timestamped hn stamp counter

/-- A name that the settings of a save-file accept has no slash. -/
theorem FileSettings.no_slash_of_check {f : FileSettings} (h : f.check = .ok ()) :
    '/' ∉ f.name.toList := by
  unfold check at h
  split at h
  · cases h
  · split at h
    · cases h
    · next hpath =>
      intro hmem
      apply hpath
      simp only [isPathLike, Bool.or_eq_true, List.any_eq_true]
      exact Or.inl (Or.inl ⟨'/', hmem, by decide⟩)

end Keepsake
