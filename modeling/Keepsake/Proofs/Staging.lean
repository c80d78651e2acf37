import Keepsake.Proofs.FreeName
/-!
# Replacing a file in two steps

Among more letters than there are files and folders some are free, so a temporary file always gets a
name of its own, however many were left in the folder. Whether it can be made then depends on the
folder alone (`Storage.staging`), and replacing a file through it comes to the same as writing the
file at once (`Storage.write_eq`).
-/

namespace Keepsake

variable {ω : Type}

/-! ## Letters -/

namespace Storage

theorem temporaryLetters_injective {a b : Nat} (h : temporaryLetters a = temporaryLetters b) :
    a = b := by
  -- the digits are what is left without the letters in front of them
  have hdigits : ∀ n, (temporaryLetters n).filter Char.isDigit
      = if n = 0 then [] else Decimal.digitChars n := by
    intro n
    have hfront : ∀ k, (List.replicate k 'X').filter Char.isDigit = [] := by
      intro k
      rw [List.filter_eq_nil_iff]
      intro c hc
      rw [List.eq_of_mem_replicate hc]
      decide
    have hback : (if n = 0 then [] else Decimal.digitChars n).filter Char.isDigit
        = if n = 0 then [] else Decimal.digitChars n := by
      rw [List.filter_eq_self]
      intro c hc
      split at hc
      · cases hc
      · exact Decimal.isDigit_of_mem_digitChars hc
    rw [temporaryLetters, List.filter_append, hfront, List.nil_append, hback]
  have heq := (hdigits a).symm.trans (h ▸ hdigits b)
  split at heq
  · next ha =>
    split at heq
    · next hb => rw [ha, hb]
    · exact absurd heq.symm (Decimal.digitChars_ne_nil b)
  · split at heq
    · exact absurd heq (Decimal.digitChars_ne_nil a)
    · exact Decimal.text_injective (congrArg String.ofList heq)

theorem temporaryNameWith_injective {name : String} {s t : List Char}
    (h : temporaryNameWith s name = temporaryNameWith t name) : s = t := by
  have h' := congrArg String.toList h
  simpa [temporaryNameWith] using h'

theorem zero_mem_temporaryNameWith_iff {name : String} {letters : List Char}
    (hl : Char.ofNat 0 ∉ letters) :
    Char.ofNat 0 ∈ (temporaryNameWith letters name).toList ↔ Char.ofNat 0 ∈ name.toList := by
  have hmarks : Char.ofNat 0 ∉ ['.', 't', 'm', 'p'] := by decide
  simp only [List.mem_cons, List.not_mem_nil, or_false, not_or] at hmarks
  simp [temporaryNameWith, hl, hmarks]

end Storage

/-! ## There are not enough entries -/

theorem Path.text_concat (dir : Path) (name : String) :
    (Path.text (dir ++ [name])).toList = (Path.text dir).toList ++ '/' :: name.toList := by
  simp [Path.text, String.join_append]

/-- Of more names than there are files and folders one is free. -/
theorem Disk.exists_not_isTaken (d : Disk) (dir : Path) (names : Nat → String)
    (hnames : ∀ a b, names a = names b → a = b) :
    ∃ k < d.entryCount + 1, d.isTaken (.ok (.entry dir (names k))) = false := by
  apply Decidable.byContradiction
  intro hno
  -- otherwise all names would be among those of the files and of the folders
  let files := ((d.folder? dir).map NameMap.keys).getD []
  let folders := d.folders.keys.map fun p =>
    String.ofList (p.toList.drop ((Path.text dir).toList.length + 1))
  have hsub : (List.range (d.entryCount + 1)).map names ⊆ files ++ folders := by
    intro name hname
    obtain ⟨k, hk, rfl⟩ := List.mem_map.1 hname
    have htaken : d.isTaken (.ok (.entry dir (names k))) = true := by
      rw [← Bool.not_eq_false]
      exact fun hfree => hno ⟨k, List.mem_range.1 hk, hfree⟩
    rw [isTaken, Bool.or_eq_true] at htaken
    rcases htaken with hfile | hfolder
    · obtain ⟨data, hdata⟩ := Option.isSome_iff_exists.1 hfile
      obtain ⟨f, hf, hget⟩ := Option.bind_eq_some_iff.1 hdata
      refine List.mem_append_left _ ?_
      simp only [files, hf]
      exact NameMap.mem_keys_of_get? hget
    · obtain ⟨f, hf⟩ := Option.isSome_iff_exists.1 hfolder
      refine List.mem_append_right _ (List.mem_map.2 ⟨_, NameMap.mem_keys_of_get? hf, ?_⟩)
      rw [Path.text_concat, List.drop_append]
      simp
  have hnodup : ((List.range (d.entryCount + 1)).map names).Nodup :=
    List.pairwise_map.2 (List.nodup_range.imp fun hne heq => hne (hnames _ _ heq))
  have hfiles : files.length ≤ d.fileCount := by
    cases hf : d.folder? dir with
    | none => simp [files, hf]
    | some f =>
      have hsize := size_le_fileCount hf
      simpa [files, hf, NameMap.keys, NameMap.size] using hsize
  have hlength := hnodup.length_le_of_subset hsub
  simp only [List.length_map, List.length_range, List.length_append, folders, NameMap.keys,
    entryCount, NameMap.size] at hlength
  omega

namespace Storage

/-- A search that comes to letters that are free ends with a name. -/
theorem exists_freshTemporary? {s : Storage} {d : Disk} {name : String} {n tries : Nat}
    (h : ∃ k < tries, d.isTaken
      (s.temporaryPlace d (temporaryNameWith (temporaryLetters (n + k)) name)) = false) :
    ∃ k, s.freshTemporary? d name n tries
      = some (temporaryNameWith (temporaryLetters k) name) := by
  induction tries generalizing n with
  | zero =>
    obtain ⟨k, hk, -⟩ := h
    exact absurd hk (Nat.not_lt_zero k)
  | succ tries ih =>
    simp only [freshTemporary?]
    split
    · next htaken =>
      obtain ⟨k, hk, hfree⟩ := h
      cases k with
      | zero =>
        rw [Nat.add_zero, htaken] at hfree
        cases hfree
      | succ k =>
        refine ih ⟨k, Nat.lt_of_succ_lt_succ hk, ?_⟩
        rwa [Nat.add_assoc, Nat.add_comm 1 k]
    · exact ⟨n, rfl⟩

/-! ## Staging -/

variable {s : Storage} {name : String}

/-- The folder in which the temporary file for a file is made, if it can be. -/
def staging (s : Storage) (d : Disk) (name : String) : Except DiskFault Path :=
  if Char.ofNat 0 ∈ (temporaryName name).toList then .error .zeroCharacter
  else do
    let dir ← s.home d
    if Path.nameLimit < (temporaryName name).utf8ByteSize then .error .nameTooLong
    else if (d.folder? dir).isSome then .ok dir
    else .error .notFound

theorem isEntryName_temporaryName (hn : '/' ∉ name.toList) : IsEntryName (temporaryName name) :=
  isEntryName_temporaryNameWith hn (by decide)

theorem temporaryPlace_of_home {d : Disk} {dir : Path} (hn : '/' ∉ name.toList)
    (hz : Char.ofNat 0 ∉ name.toList) (hdir : s.home d = .ok dir) (n : Nat) :
    s.temporaryPlace d (temporaryNameWith (temporaryLetters n) name)
      = .ok (.entry dir (temporaryNameWith (temporaryLetters n) name)) := by
  have hslash : '/' ∉ temporaryLetters n := fun hc =>
    absurd (isAlphanum_of_mem_temporaryLetters hc) (by decide)
  have hzero : Char.ofNat 0 ∉ temporaryLetters n := fun hc =>
    absurd (isAlphanum_of_mem_temporaryLetters hc) (by decide)
  have hplain := Disk.isPlainName_of_isEntryName (isEntryName_temporaryNameWith hn hslash)
    (mt (zero_mem_temporaryNameWith_iff hzero).1 hz)
  rw [temporaryPlace, if_pos hplain, hdir]
  rfl

/-- There are always letters for a temporary file in the folder of a storage. -/
theorem exists_chooseTemporary {d : Disk} {dir : Path} {place : Place} (hn : '/' ∉ name.toList)
    (hz : Char.ofNat 0 ∉ name.toList) (hdir : s.home d = .ok dir)
    (hl : s.locate d (temporaryName name) = .ok place) :
    ∃ n, s.chooseTemporary d name = .ok (temporaryNameWith (temporaryLetters n) name) := by
  obtain ⟨k, hk, hfree⟩ := d.exists_not_isTaken dir
    (fun n => temporaryNameWith (temporaryLetters n) name)
    fun _ _ h => temporaryLetters_injective (temporaryNameWith_injective h)
  have hletters : ∃ k < d.entryCount + 1, d.isTaken
      (s.temporaryPlace d (temporaryNameWith (temporaryLetters (0 + k)) name)) = false := by
    refine ⟨k, hk, ?_⟩
    rw [Nat.zero_add, temporaryPlace_of_home hn hz hdir]
    exact hfree
  obtain ⟨n, hfresh⟩ := exists_freshTemporary? hletters
  refine ⟨n, ?_⟩
  rw [chooseTemporary, hl]
  simp only [hfresh]

/-- A name that leads nowhere is refused before letters are tried. -/
theorem stage_of_refused {e : DiskFault} {w : World ω}
    (h : s.locate w.disk (temporaryName name) = .error e) (data : ByteArray) :
    s.stage data name w = (.fail (s.stagingFailure name e), w) := by
  rw [stage, Act.get_bind, chooseTemporary, h]
  rfl

/-- In a folder the temporary file is made, unless the folder is gone. -/
theorem stage_of_home {dir : Path} {place : Place} {w : World ω} (hn : '/' ∉ name.toList)
    (hz : Char.ofNat 0 ∉ name.toList) (hdir : s.home w.disk = .ok dir)
    (hl : s.locate w.disk (temporaryName name) = .ok place) (data : ByteArray) :
    (w.disk.folder? dir).isSome = true ∧ (∃ temporary d',
        s.stage data name w = (.ok temporary, { w with disk := d' }) ∧
          s.Staged w.disk data temporary d') ∨
      (w.disk.folder? dir).isSome = false ∧
        s.stage data name w = (.fail (s.stagingFailure name .notFound), w) := by
  obtain ⟨n, hchosen⟩ := exists_chooseTemporary hn hz hdir hl
  have hplace := temporaryPlace_of_home hn hz hdir n
  rcases stage_of_chosen hchosen data with ⟨d', hstage, hstaged⟩ | ⟨e, he, hstage⟩
  · refine Or.inl ⟨?_, _, d', hstage, hstaged⟩
    cases hstaged with
    | made place there =>
      rw [hplace] at place
      cases place
      exact there
  · rw [hplace, Disk.write] at he
    split at he
    · cases he
    · next hthere =>
      cases he
      exact Or.inr ⟨Bool.eq_false_iff.2 hthere, hstage⟩

/-- A temporary file is made where the folder allows for one. -/
theorem stage_run (hn : '/' ∉ name.toList) (data : ByteArray) (w : World ω) :
    (∃ e, s.staging w.disk name = .error e ∧
        s.stage data name w = (.fail (s.stagingFailure name e), w)) ∨
      ∃ dir temporary d', s.staging w.disk name = .ok dir ∧ s.home w.disk = .ok dir ∧
        s.stage data name w = (.ok temporary, { w with disk := d' }) ∧
        s.Staged w.disk data temporary d' := by
  have hentry := isEntryName_temporaryName hn
  have hlocate := locate_eq s w.disk hentry
  unfold staging
  by_cases hz : Char.ofNat 0 ∈ (temporaryName name).toList
  · rw [if_pos hz] at hlocate ⊢
    exact Or.inl ⟨_, rfl, stage_of_refused hlocate data⟩
  · rw [if_neg hz] at hlocate ⊢
    have hz' : Char.ofNat 0 ∉ name.toList := mt (zero_mem_temporaryNameWith_iff (by decide)).2 hz
    cases hdir : s.home w.disk with
    | error e =>
      rw [hdir] at hlocate
      exact Or.inl ⟨e, rfl, stage_of_refused hlocate data⟩
    | ok dir =>
      rw [hdir] at hlocate
      have hwalk : s.locate w.disk (temporaryName name) = _ :=
        hlocate.trans (Disk.walk_singleton w.disk dir hentry)
      show (∃ e, ite _ _ _ = _ ∧ _) ∨ _
      by_cases hlong : Path.nameLimit < (temporaryName name).utf8ByteSize
      · rw [if_pos hlong] at hwalk
        exact Or.inl ⟨_, if_pos hlong, stage_of_refused hwalk data⟩
      · rw [if_neg hlong] at hwalk
        obtain ⟨place, hplace⟩ : ∃ place, s.locate w.disk (temporaryName name) = .ok place := by
          split at hwalk <;> exact ⟨_, hwalk⟩
        rcases stage_of_home hn hz' hdir hplace data with
          ⟨hthere, temporary, d', hstage⟩ | ⟨hgone, hstage⟩
        · exact Or.inr ⟨dir, temporary, d', (if_neg hlong).trans (if_pos hthere), rfl, hstage⟩
        · exact Or.inl ⟨.notFound, (if_neg hlong).trans (if_neg (by simp [hgone])), hstage⟩

/-- Whether the temporary file for a file can be made. -/
def canStage (s : Storage) (d : Disk) (name : String) : Except Failure Unit :=
  match s.staging d name with
  | .ok _ => .ok ()
  | .error e => .error (s.stagingFailure name e)

/-- Between disks with the same folders a name of the home leads to the same place. -/
theorem locate_of_home {d d' : Disk} {dir : Path} (hn : IsEntryName name)
    (h : Disk.SameFolders d d') (hdir : s.home d = .ok dir) :
    s.locate d' name = s.locate d name := by
  rw [locate_eq s d hn, locate_eq s d' hn, home_of_sameFolders h hdir, hdir]
  split
  · rfl
  · exact (Disk.walk_singleton d' dir hn).trans
      (by rw [h.folders]; exact (Disk.walk_singleton d dir hn).symm)

/--
Replacing a file by way of a temporary file comes to writing it at once, where the temporary file can
be made and no fault strikes.
-/
theorem write_eq (s : Storage) (hn : IsEntryName name) (data : ByteArray) :
    (s.write data name : Act ω Failure Unit) = s.callInSteps .write fun late => (do
      let d ← Act.get World.disk
      Act.ofExcept (s.canStage d name)
      Act.ofOutcome late
      Act.onDisk fun d => orFail (s.renamingTask name) (d.write (s.locate d name) data)) := by
  unfold write
  refine congrArg (s.callInSteps .write) (funext fun late => funext fun w => ?_)
  rw [Act.get_bind]
  rcases stage_run (s := s) hn.2.2.2 data w with ⟨e, hno, hstage⟩ |
    ⟨dir, temporary, d', hyes, hdir, hstage, hstaged⟩
  · have hcan : s.canStage w.disk name = .error (s.stagingFailure name e) := by
      rw [canStage, hno]
    rw [Act.bind_apply, hstage, hcan]
    rfl
  · have hcan : s.canStage w.disk name = .ok () := by rw [canStage, hyes]
    rw [Act.bind_of_ok hstage, hcan, Act.ofExcept_ok_bind]
    cases late with
    | ok u =>
      rw [Act.bind_of_ok (Act.cleaning_of_ok (Act.ofOutcome_apply _ _)), hstaged.commit_apply,
        Act.ofOutcome_ok_bind, locate_of_home hn hstaged.sameFolders hdir]
      rfl
    | fail f =>
      rw [Act.bind_apply, hstaged.struck_apply (Outcome.isStop_fail f)]
      rfl
    | panic p =>
      rw [Act.bind_apply, hstaged.struck_apply (Outcome.isStop_panic p)]
      rfl

end Storage

end Keepsake
