import Keepsake.Proofs.Name
/-!
# Every save-file has names of its own

The names of a save-file are put together from its own name, fixed texts, a moment and a counter,
and a timestamped backup is recognised by taking its name apart again. The name of a save-file may
hold any of these texts, and may even be that of another one's backup. What keeps save-files apart
nonetheless is where `.softsav_` stands last: behind it there is no letter, neither in what is
written there nor in what is read there as a moment (`IsMarked.injective`). All other names are
told apart by their last character.
-/

namespace Keepsake

open Storage (temporaryNameWith temporaryLetters)

/-! ## The names of a save-file -/

/-- The names of the files of a save-file that stay: the save file itself and its backups. -/
inductive IsLastingName (name : String) : String → Prop where
  | canonical : IsLastingName name (canonicalName name)
  | backup {file : String} (backup : IsBackupName name file) : IsLastingName name file

/-- The names of all files of a save-file, whatever letters a temporary one got. -/
inductive IsNameOf (name : String) : String → Prop where
  | lasting {file : String} (lasting : IsLastingName name file) : IsNameOf name file
  | temporary (letters : List Char) (plain : ∀ c ∈ letters, c.isAlphanum = true) :
    IsNameOf name (temporaryNameWith letters (canonicalName name))

theorem isAlphanum_of_mem_temporaryLetters {n : Nat} {c : Char}
    (h : c ∈ temporaryLetters n) : c.isAlphanum = true := by
  have hdigits : ∀ c ∈ (if n = 0 then [] else Decimal.digitChars n), c.isDigit = true := by
    split
    · exact nofun
    · exact fun c => Decimal.isDigit_of_mem_digitChars
  rcases List.mem_append.1 h with h | h
  · rw [List.eq_of_mem_replicate h]
    decide
  · rw [Char.isAlphanum, hdigits c h, Bool.or_true]

/-- A temporary file has a name of its save-file, at whatever time it got its letters. -/
theorem isNameOf_temporaryLetters (name : String) (n : Nat) :
    IsNameOf name (temporaryNameWith (temporaryLetters n) (canonicalName name)) :=
  .temporary _ fun _ => isAlphanum_of_mem_temporaryLetters

theorem Storage.isEntryName_temporaryNameWith {name : String} (hn : '/' ∉ name.toList)
    {letters : List Char} (hl : '/' ∉ letters) : IsEntryName (temporaryNameWith letters name) := by
  refine isEntryName_of_long ?_ ?_
  · simp [temporaryNameWith]
    omega
  · simp [temporaryNameWith, hn, hl]

/-! ## Moments -/

/-- The characters of what is read as a moment, with or without a counter. -/
def isMomentChar (c : Char) : Bool :=
  isWhiteSpace c || c.isDigit || c = '-' || c = '.' || c = '+'

theorem isMomentChar_of_isDigit {c : Char} (h : c.isDigit = true) : isMomentChar c = true := by
  simp [isMomentChar, h]

theorem momentChars_ne_nil (stamp : Stamp) (counter : Nat) : momentChars stamp counter ≠ [] := by
  simp [momentChars, Stamp.compactChars, Stamp.twoDigits]

theorem isMomentChar_of_mem_momentChars (stamp : Stamp) (counter : Nat) :
    ∀ c ∈ momentChars stamp counter, isMomentChar c = true := by
  have hdigit : ∀ n, isMomentChar (Stamp.digit n) = true :=
    fun n => isMomentChar_of_isDigit (Stamp.isDigit_digit n)
  have hcounter : ∀ c ∈ Decimal.digitChars counter, isMomentChar c = true :=
    fun c hc => isMomentChar_of_isDigit (Decimal.isDigit_of_mem_digitChars hc)
  have hdash : isMomentChar '-' = true := by decide
  have hpoint : isMomentChar '.' = true := by decide
  unfold momentChars Stamp.compactChars Stamp.twoDigits
  split
  · simp [hdigit, hdash]
  · simpa [hdigit, hdash, hpoint] using hcounter

theorem isMomentChar_of_compactText {stamp : Stamp} {cs : List Char} (h : stamp.CompactText cs) :
    ∀ c ∈ cs, isMomentChar c = true := by
  refine h.forall_mem (fun c hc => ?_) (by decide)
  rcases hc with hc | hc <;> simp [isMomentChar, hc]

/-- All that is read as a moment is moment characters. -/
theorem isMomentChar_of_momentText {stamp : Stamp} {counter : Nat} {cs : List Char}
    (h : MomentText stamp counter cs) : cs ≠ [] ∧ ∀ c ∈ cs, isMomentChar c = true := by
  cases h with
  | bare moment => exact ⟨moment.ne_nil, isMomentChar_of_compactText moment⟩
  | counted moment count =>
    refine ⟨by simp, ?_⟩
    rw [List.forall_mem_append, List.forall_mem_cons]
    refine ⟨isMomentChar_of_compactText moment, by decide, fun c hc => ?_⟩
    rcases count.isDigit_or_plus c hc with hdigit | rfl
    · exact isMomentChar_of_isDigit hdigit
    · decide

/-! ## Marked names -/

/-- What stands between the name of a save-file and the moment in the name of a backup. -/
def backupMark : List Char := (saveSuffix ++ "_").toList

/-- The name of a save-file, the mark, and what may be a moment behind it. -/
def IsMarked (name file : String) : Prop :=
  ∃ moment, file.toList = name.toList ++ (backupMark ++ moment) ∧ moment ≠ [] ∧
    ∀ c ∈ moment, isMomentChar c = true

theorem isMarked_timestamped (name : String) (stamp : Stamp) (counter : Nat) :
    IsMarked name (withCounter (timestampedName name stamp) counter) := by
  refine ⟨momentChars stamp counter, ?_, momentChars_ne_nil stamp counter,
    isMomentChar_of_mem_momentChars stamp counter⟩
  unfold withCounter momentChars
  split <;>
    simp [timestampedName, canonicalName, backupMark, Decimal.text, List.append_assoc]

theorem eq_append_of_dropFront? {front cs rest : List Char}
    (h : dropFront? front cs = some rest) : cs = front ++ rest := by
  induction front generalizing cs with
  | nil =>
    cases h
    rfl
  | cons p front ih =>
    cases cs with
    | nil => cases h
    | cons c cs =>
      unfold dropFront? at h
      split at h
      · next hc => rw [hc, List.cons_append, ih h]
      · cases h

/-- What is recognised as a timestamped backup has a marked name. -/
theorem isMarked_of_readBackup {name file : String} {r : Stamp × Nat}
    (h : readBackup name file = some r) : IsMarked name file := by
  obtain ⟨moment, hdrop, hread⟩ := Option.bind_eq_some_iff.1 h
  obtain ⟨-, -, htext⟩ := readMoment_eq_some_iff.1 hread
  obtain ⟨hne, hmoment⟩ := isMomentChar_of_momentText htext
  refine ⟨moment, ?_, hne, hmoment⟩
  rw [eq_append_of_dropFront? hdrop]
  simp [canonicalName, backupMark, List.append_assoc]

namespace IsMarked

variable {name other file : String}

theorem getLast? (h : IsMarked name file) :
    ∃ c, file.toList.getLast? = some c ∧ isMomentChar c = true := by
  obtain ⟨moment, hfile, hne, hmoment⟩ := h
  refine ⟨moment.getLast hne, ?_, hmoment _ (List.getLast_mem hne)⟩
  rw [hfile, ← List.append_assoc, List.getLast?_append, List.getLast?_eq_some_getLast hne]
  rfl

theorem no_slash (h : IsMarked name file) (hn : '/' ∉ name.toList) : '/' ∉ file.toList := by
  obtain ⟨moment, hfile, -, hmoment⟩ := h
  have hslash : '/' ∉ moment := fun hc => absurd (hmoment _ hc) (by decide)
  have hmark : '/' ∉ backupMark := by decide
  rw [hfile]
  simp [hn, hslash, hmark]

theorem isEntryName (h : IsMarked name file) (hn : '/' ∉ name.toList) : IsEntryName file := by
  refine isEntryName_of_long ?_ (h.no_slash hn)
  obtain ⟨moment, hfile, -, -⟩ := h
  have hmark : backupMark.length = 9 := by decide
  rw [hfile, List.length_append, List.length_append]
  omega

/--
Marks that stand at different places would overlap, and the later one stand in the moment behind
the earlier; but there is an `s` in each mark and none in a moment.
-/
theorem eq_of_front {a b s t : List Char} (ht : 's' ∉ t)
    (h : a ++ (backupMark ++ s) = b ++ (backupMark ++ t)) (hs : 's' ∉ s) (m : List Char)
    (hb : b = a ++ m) : m = [] := by
  have hmark : backupMark = ['.', 's', 'o', 'f', 't', 's', 'a', 'v', '_'] := rfl
  rw [hb, List.append_assoc, List.append_cancel_left_eq, hmark] at h
  have hcount := congrArg (List.count 's') h
  simp only [List.count_append, List.count_eq_zero.2 hs, List.count_eq_zero.2 ht] at hcount
  match m with
  | [] => rfl
  | [c] => simp at h
  | c :: c' :: m =>
    simp only [List.cons_append, List.cons.injEq] at h
    obtain ⟨rfl, rfl, -⟩ := h
    simp at hcount

/-- A file is marked for one save-file only. -/
theorem injective (h : IsMarked name file) (h' : IsMarked other file) : name = other := by
  obtain ⟨s, hs, -, hsm⟩ := h
  obtain ⟨t, ht, -, htm⟩ := h'
  have hs' : 's' ∉ s := fun hc => absurd (hsm _ hc) (by decide)
  have ht' : 's' ∉ t := fun hc => absurd (htm _ hc) (by decide)
  have heq := hs.symm.trans ht
  have hend := heq
  rw [List.append_eq_append_iff] at hend
  rcases hend with ⟨m, hm, -⟩ | ⟨m, hm, -⟩
  · rw [eq_of_front ht' heq hs' m hm, List.append_nil] at hm
    exact String.toList_inj.1 hm.symm
  · rw [eq_of_front hs' heq.symm ht' m hm, List.append_nil] at hm
    exact String.toList_inj.1 hm

end IsMarked

/-! ## Names do not meet -/

theorem not_isMarked_of_getLast? {name file : String} {c : Char}
    (h : file.toList.getLast? = some c) (hc : isMomentChar c = false) : ¬IsMarked name file := by
  intro hm
  obtain ⟨c', h', hc'⟩ := hm.getLast?
  rw [h] at h'
  cases h'
  rw [hc] at hc'
  cases hc'

theorem not_isMarked_canonicalName (name other : String) : ¬IsMarked name (canonicalName other) :=
  not_isMarked_of_getLast? (getLast?_canonicalName other) (by decide)

theorem not_isMarked_rotatingName (name other : String) : ¬IsMarked name (rotatingName other) :=
  not_isMarked_of_getLast? (getLast?_rotatingName other) (by decide)

theorem getLast?_temporaryNameWith (letters : List Char) (file : String) :
    (temporaryNameWith letters file).toList.getLast? = some 'p' := by
  simp [temporaryNameWith, List.getLast?_cons]

theorem not_isMarked_temporaryNameWith (name : String) (letters : List Char) (file : String) :
    ¬IsMarked name (temporaryNameWith letters file) :=
  not_isMarked_of_getLast? (getLast?_temporaryNameWith letters file) (by decide)

theorem rotatingName_injective {a b : String} (h : rotatingName a = rotatingName b) : a = b := by
  have h' := congrArg String.toList h
  exact String.toList_inj.1 (by simpa [rotatingName] using h')

/-- A backup's name is its save-file's only. -/
theorem IsBackupName.injective {name other file : String} (h : IsBackupName name file)
    (h' : IsBackupName other file) : name = other := by
  cases h with
  | rotating =>
    generalize hfile : rotatingName name = file at h'
    cases h' with
    | rotating => exact rotatingName_injective hfile
    | timestamped stamp counter =>
      exact absurd (hfile ▸ isMarked_timestamped other stamp counter)
        (not_isMarked_rotatingName other name)
  | timestamped stamp counter =>
    have hm := isMarked_timestamped name stamp counter
    generalize withCounter (timestampedName name stamp) counter = file at h' hm
    cases h' with
    | rotating => exact absurd hm (not_isMarked_rotatingName name other)
    | timestamped stamp' counter' => exact hm.injective (isMarked_timestamped other stamp' counter')

namespace IsLastingName

variable {name other file : String}

theorem injective (h : IsLastingName name file) (h' : IsLastingName other file) :
    name = other := by
  cases h with
  | canonical =>
    generalize hfile : canonicalName name = file at h'
    cases h' with
    | canonical => exact canonicalName_injective hfile
    | backup hb => exact absurd hfile (canonicalName_ne_of_isBackupName hb name)
  | backup hb =>
    cases h' with
    | canonical => exact absurd rfl (canonicalName_ne_of_isBackupName hb other)
    | backup hb' => exact hb.injective hb'

/-- What stays never has the name of a temporary file, of whatever save-file. -/
theorem ne_temporaryNameWith (h : IsLastingName name file) (letters : List Char) (other : String) :
    file ≠ temporaryNameWith letters other := by
  have hlast := getLast?_temporaryNameWith letters other
  rintro rfl
  generalize hfile : temporaryNameWith letters other = file at h hlast
  cases h with
  | canonical =>
    rw [getLast?_canonicalName] at hlast
    cases hlast
  | backup hb =>
    cases hb with
    | rotating =>
      rw [getLast?_rotatingName] at hlast
      cases hlast
    | timestamped stamp counter =>
      exact not_isMarked_temporaryNameWith name letters other
        (hfile ▸ isMarked_timestamped name stamp counter)

theorem isEntryName (h : IsLastingName name file) (hn : '/' ∉ name.toList) : IsEntryName file := by
  cases h with
  | canonical => exact isEntryName_canonicalName hn
  | backup hb => exact isEntryName_of_isBackupName hn hb

end IsLastingName

/-! ## What is recognised -/

/-- A backup in a listing has the rotating name or a marked one. -/
theorem BackupEntry.cases_of_mem_listOf {name : String} {files : List String} {e : BackupEntry}
    (h : e ∈ listOf name files) : e.file = rotatingName name ∨ IsMarked name e.file := by
  unfold listOf at h
  rcases List.mem_append.1 h with h | h
  · obtain ⟨file, -, hfile⟩ := List.mem_filterMap.1 (List.mem_mergeSort.1 h)
    unfold ofFile? at hfile
    split at hfile
    · cases hfile
    · obtain ⟨r, hr, rfl⟩ := Option.map_eq_some_iff.1 hfile
      exact Or.inr (isMarked_of_readBackup hr)
  · split at h
    · cases List.mem_singleton.1 h
      exact Or.inl rfl
    · cases h

namespace IsNameOf

variable {name other file : String}

theorem isEntryName (h : IsNameOf name file) (hn : '/' ∉ name.toList) : IsEntryName file := by
  cases h with
  | lasting h => exact h.isEntryName hn
  | temporary letters plain =>
    have hletters : '/' ∉ letters := fun hc => absurd (plain _ hc) (by decide)
    exact Storage.isEntryName_temporaryNameWith (isEntryName_canonicalName hn).2.2.2 hletters

theorem eq_of_isMarked (h : IsNameOf name file) (hm : IsMarked other file) : name = other := by
  cases h with
  | lasting h =>
    cases h with
    | canonical => exact absurd hm (not_isMarked_canonicalName other name)
    | backup hb =>
      cases hb with
      | rotating => exact absurd hm (not_isMarked_rotatingName other name)
      | timestamped stamp counter => exact (isMarked_timestamped name stamp counter).injective hm
  | temporary letters _ =>
    exact absurd hm (not_isMarked_temporaryNameWith other letters (canonicalName name))

theorem eq_of_rotatingName (h : IsNameOf name (rotatingName other)) : name = other := by
  generalize hfile : rotatingName other = file at h
  cases h with
  | lasting h => exact h.injective (hfile ▸ .backup .rotating)
  | temporary letters _ =>
    have hother : IsLastingName other (rotatingName other) := .backup .rotating
    exact absurd hfile (hother.ne_temporaryNameWith letters (canonicalName name))

/-- No file of a save-file is listed as a backup of another one. -/
theorem not_mem_listOf (h : IsNameOf name file) (hne : name ≠ other) (files : List String) :
    file ∉ (BackupEntry.listOf other files).map BackupEntry.file := by
  intro hmem
  obtain ⟨e, he, rfl⟩ := List.mem_map.1 hmem
  rcases BackupEntry.cases_of_mem_listOf he with hrot | hmark
  · rw [hrot] at h
    exact hne h.eq_of_rotatingName
  · exact hne (h.eq_of_isMarked hmark)

end IsNameOf

end Keepsake
