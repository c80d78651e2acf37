import Keepsake.Proofs.BackupOrder
/-!
# A timestamped backup overwrites nothing

The search for the name of a timestamped backup goes from counter to counter while there is a file
under the name. There are fewer counters to pass than files in the folder, since the save file is
one of them and each counter that is passed is another (`lt_size_of_firstFree`); so the search ends,
at the first free counter, and ends there however long it might go on.

The copy then makes a new file or changes nothing at all (`CopyEnd`), and no file that was there
before is another one behind it.
-/

namespace Keepsake

variable {ω : Type}

/-! ## One more file -/

namespace Disk

/-- A folder has one more file, and all else is as it was. -/
structure Gains (d d' : Disk) (dir : Path) (name : String) (data : ByteArray) : Prop where
  new : d.file? dir name = none
  held : d'.file? dir name = some data
  others : ∀ path file, path.text ≠ dir.text ∨ file ≠ name → d'.file? path file = d.file? path file
  folders : SameFolders d d'

theorem file?_setFile_of_text_ne {d : Disk} {dir path : Path} (h : path.text ≠ dir.text)
    (name file : String) (data : ByteArray) :
    (d.setFile dir name data).file? path file = d.file? path file := by
  unfold setFile
  split
  · unfold file?
    rw [folder?_setFolder, if_neg h.symm]
  · rfl

theorem gains_setFile {d : Disk} {dir : Path} {name : String} (hf : (d.folder? dir).isSome = true)
    (hnew : d.file? dir name = none) (data : ByteArray) :
    Gains d (d.setFile dir name data) dir name data where
  new := hnew
  held := file?_setFile_self hf
  others := by
    intro path file h
    rcases h with hpath | hfile
    · exact file?_setFile_of_text_ne hpath name file data
    · exact file?_setFile_of_ne hfile.symm
  folders := sameFolders_setFile d dir name data

/-- Every file that was there is there with its bytes. -/
theorem Gains.kept {d d' : Disk} {dir path : Path} {name file : String} {data before : ByteArray}
    (h : Gains d d' dir name data) (hfile : d.file? path file = some before) :
    d'.file? path file = some before := by
  by_cases hplace : path.text = dir.text ∧ file = name
  · -- the place of the new file was empty, by whatever path it is reached
    obtain ⟨hpath, rfl⟩ := hplace
    have hnew := h.new
    unfold file? folder? at hfile hnew
    rw [hpath, hnew] at hfile
    cases hfile
  · rw [h.others path file (Decidable.not_and_iff_not_or_not.1 hplace), hfile]

end Disk

/-! ## The search ends -/

/-- The counters that are passed are fewer than the files, one of which is the save file. -/
theorem lt_size_of_firstFree {s : Storage} {d : Disk} {name : String} (hn : '/' ∉ name.toList)
    {stamp : Stamp} {counter : Nat}
    (h : FirstFree (s.contains d) (timestampedName name stamp) counter)
    (hc : s.contains d (canonicalName name) = true) :
    ∃ dir folder, s.home d = .ok dir ∧ d.folder? dir = some folder ∧ counter < folder.size := by
  have hcanonical := isEntryName_canonicalName hn
  obtain ⟨dir, folder, hdir, hfolder, -⟩ := Storage.exists_of_contains hcanonical hc
  refine ⟨dir, folder, hdir, hfolder, ?_⟩
  have hnodup : (canonicalName name ::
      (List.range counter).map (withCounter (timestampedName name stamp))).Nodup := by
    refine List.nodup_cons.2 ⟨?_, nodup_withCounter _ counter⟩
    intro hmem
    obtain ⟨j, -, hj⟩ := List.mem_map.1 hmem
    exact canonicalName_ne_of_isBackupName (.timestamped stamp j) name hj.symm
  have hlength := Storage.length_le_size hdir hfolder hnodup (by
    intro file hfile
    rcases List.mem_cons.1 hfile with rfl | hfile
    · exact ⟨hcanonical, hc⟩
    · obtain ⟨j, hj, rfl⟩ := List.mem_map.1 hfile
      exact ⟨isEntryName_timestamped hn stamp j, h.before j (List.mem_range.1 hj)⟩)
  rwa [List.length_cons, List.length_map, List.length_range] at hlength

/-! ## The copy -/

/-- How the copy of a save file to a new name ends. -/
inductive CopyEnd (s : Storage) (name : String) (dir : Path) (target : String) (d : Disk) :
    Outcome Failure (Option String) → Disk → Prop where
  /-- the folder has one more file, with the bytes of the save file -/
  | copied {d' : Disk} {data : ByteArray} (source : s.content? d (canonicalName name) = some data)
    (gains : d.Gains d' dir target data) : CopyEnd s name dir target d (.ok (some target)) d'
  /-- nothing has changed -/
  | stopped {o : Outcome Failure (Option String)} (stop : o.IsStop) :
    CopyEnd s name dir target d o d

theorem CopyEnd.kept {s : Storage} {name target : String} {dir : Path} {d d' : Disk}
    {o : Outcome Failure (Option String)} (h : CopyEnd s name dir target d o d') {path : Path}
    {file : String} {data : ByteArray} (hfile : d.file? path file = some data) :
    d'.file? path file = some data := by
  cases h with
  | copied _ gains => exact gains.kept hfile
  | stopped _ => exact hfile

/-- What taking a timestamped backup of a save file comes to, with the counter that it gets. -/
structure Numbered (s : Storage) (name : String) (stamp : Stamp) (w : World ω) (dir : Path)
    (folder : Folder) (counter : Nat) : Prop where
  home : s.home w.disk = .ok dir
  there : w.disk.folder? dir = some folder
  /-- all lower counters are taken -/
  first : FirstFree (s.contains w.disk) (timestampedName name stamp) counter
  room : counter < folder.size
  /-- the search has come to its end with the next try, and more tries make no difference -/
  search : ∀ tries, counter < tries →
    freeName (s.contains w.disk) (timestampedName name stamp) 0 tries
      = stampedName name stamp counter
  ends : CopyEnd s name dir (stampedName name stamp counter) w.disk
    (takeBackup s name .timestamped stamp w).1 (takeBackup s name .timestamped stamp w).2.disk
  /-- however that is, no file has been overwritten -/
  kept : ∀ path file data, w.disk.file? path file = some data →
    (takeBackup s name .timestamped stamp w).2.disk.file? path file = some data
  /-- where no fault strikes and the name is that of a possible file, the backup is taken -/
  done : s.Calm w → s.locate w.disk (stampedName name stamp counter)
      = .ok (.entry dir (stampedName name stamp counter)) →
    (takeBackup s name .timestamped stamp w).1 = .ok (some (stampedName name stamp counter))

theorem copyEnd_of_firstFree {s : Storage} {name : String} (hn : '/' ∉ name.toList) {stamp : Stamp}
    {w : World ω} {dir : Path} {counter : Nat} (hdir : s.home w.disk = .ok dir)
    (hfirst : FirstFree (s.contains w.disk) (timestampedName name stamp) counter)
    (hc : s.contains w.disk (canonicalName name) = true) :
    CopyEnd s name dir (stampedName name stamp counter) w.disk
      (takeBackup s name .timestamped stamp w).1
      (takeBackup s name .timestamped stamp w).2.disk := by
  obtain ⟨k, htarget, hk⟩ := exists_backupTarget hn s w.disk stamp
  obtain rfl := hk.unique hfirst
  have hentry := isEntryName_timestamped hn stamp k
  have hend := takeBackup_end s name .timestamped stamp w
  generalize takeBackup s name .timestamped stamp w = r at hend ⊢
  obtain ⟨o, w'⟩ := r
  dsimp only at hend ⊢
  cases hend with
  | untaken _ unwanted => cases unwanted hc
  | taken _ chosen source place there =>
    cases htarget.symm.trans chosen
    obtain rfl := Storage.locate_entry hentry place
    obtain ⟨hhome, -⟩ := Storage.home_of_locate_entry hentry place
    rw [hdir] at hhome
    cases hhome
    refine .copied source (Disk.gains_setFile there ?_ _)
    have hfree := hfirst.free
    rw [Storage.contains_eq, Storage.content?, place] at hfree
    simpa using hfree
  | stopped called stop =>
    rw [called.alike.disk]
    exact .stopped stop

theorem takeBackup_of_calm {s : Storage} {name target : String} {stamp : Stamp} {w : World ω}
    {dir : Path} (hcalm : s.Calm w) (hc : s.contains w.disk (canonicalName name) = true)
    (htarget : backupTarget s w.disk name .timestamped stamp = some target)
    (hplace : s.locate w.disk target = .ok (.entry dir target))
    (hfolder : (w.disk.folder? dir).isSome = true) :
    (takeBackup s name .timestamped stamp w).1 = .ok (some target) := by
  have hwrite : ∀ data, w.disk.write (.ok (.entry dir target)) data
      = .ok (w.disk.setFile dir target data) := by
    intro data
    simp [Disk.write, hfolder]
  have hcopy : ∃ d', w.disk.copy (s.locate w.disk (canonicalName name)) (s.locate w.disk target)
      = .ok d' := by
    rw [Storage.contains_eq] at hc
    obtain ⟨data, hdata⟩ := Option.isSome_iff_exists.1 hc
    unfold Storage.content? at hdata
    split at hdata
    · next path file hl =>
      rw [hl, hplace]
      simp only [Disk.copy, hdata, hwrite]
      exact ⟨_, rfl⟩
    · cases hdata
  obtain ⟨d', hd'⟩ := hcopy
  cases takeBackup_probed s name .timestamped stamp w with
  | unwanted _ reason _ => cases reason hc
  | struck _ struck _ => exact absurd hcalm struck
  | @copying _ w₁ probed _ chosen run =>
    cases htarget.symm.trans chosen
    have hw₁ := probed.alike
    have hcopied : s.copy (canonicalName name) target w₁
        = (.ok (), { w₁.called with disk := d' }) := by
      unfold Storage.copy
      rw [(hcalm.of_sameSetting hw₁.toSameSetting).call_eq]
      simp only [Act.onDisk, World.called_disk, hw₁.disk, hd', Storage.orFail]
    rw [run, Act.bind_of_ok hcopied]
    rfl

/--
A timestamped backup of a save file gets the least counter that is free, which is lower than the
number of files, and is a new file with the bytes of the save file or not there at all.
-/
theorem takeBackup_numbered {s : Storage} {name : String} (hn : '/' ∉ name.toList) (stamp : Stamp)
    {w : World ω} (hc : s.contains w.disk (canonicalName name) = true) :
    ∃ dir folder counter, Numbered s name stamp w dir folder counter := by
  obtain ⟨counter, htarget, hfirst⟩ := exists_backupTarget hn s w.disk stamp
  obtain ⟨dir, folder, hdir, hfolder, hroom⟩ := lt_size_of_firstFree hn hfirst hc
  have hend := copyEnd_of_firstFree hn hdir hfirst hc
  refine ⟨dir, folder, counter, hdir, hfolder, hfirst, hroom, ?_, hend, ?_, ?_⟩
  · intro tries htries
    exact hfirst.freeName_eq htries
  · intro path file data hfile
    exact hend.kept hfile
  · intro hcalm hplace
    exact takeBackup_of_calm hcalm hc htarget hplace (by rw [hfolder]; rfl)

/-- Behind two backups of one second the next one has the counter two. -/
theorem takeBackup_numbered_sample :
    ('/' ∉ "auto".toList ∧
        (Storage.plain "/").contains Sample.doubled.disk (canonicalName "auto") = true) ∧
      ∃ dir folder,
        Numbered (.plain "/") "auto" (Sample.second 9) Sample.doubled dir folder 2 := by
  have hn : '/' ∉ "auto".toList := by decide
  have hc : (Storage.plain "/").contains Sample.doubled.disk (canonicalName "auto") = true := by
    decide +kernel
  refine ⟨⟨hn, hc⟩, ?_⟩
  obtain ⟨dir, folder, counter, h⟩ := takeBackup_numbered hn (Sample.second 9) hc
  have hfirst : FirstFree ((Storage.plain "/").contains Sample.doubled.disk)
      (timestampedName "auto" (Sample.second 9)) 2 := ⟨by decide +kernel, by decide +kernel⟩
  obtain rfl := h.first.unique hfirst
  exact ⟨dir, folder, h⟩

end Keepsake
