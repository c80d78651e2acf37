import Keepsake.Proofs.Act
import Keepsake.Storage
/-!
# What a folder has under a name

A name that is a single part of a path leads into the folder of the storage, its `home`, or nowhere:
to a file there, to the place of one, or to a folder. Which of these it is depends on the home and
on what it has under the one name (`Disk.entryAt`), so disks that agree in that cannot be told apart
through the name (`SameEntries`). Putting a file somewhere or taking one away moves no folder, and
changes only what stands under its own name.
-/

namespace Keepsake

/--
A name that is one part of a path, other than those for the folder itself and the one around it.
-/
def IsEntryName (name : String) : Prop :=
  name ≠ "" ∧ name ≠ "." ∧ name ≠ ".." ∧ '/' ∉ name.toList

/-! ## Where names lead -/

namespace Disk

/-- The same folders, whatever is in them. -/
structure SameFolders (d d' : Disk) : Prop where
  here : d'.here = d.here
  folders : ∀ path, (d'.folder? path).isSome = (d.folder? path).isSome

theorem SameFolders.trans {d₁ d₂ d₃ : Disk} (h : SameFolders d₁ d₂) (h' : SameFolders d₂ d₃) :
    SameFolders d₁ d₃ :=
  ⟨h'.here.trans h.here, fun path => (h'.folders path).trans (h.folders path)⟩

theorem folder?_setFolder (d : Disk) (path other : Path) (f : Folder) :
    (d.setFolder path f).folder? other =
      if path.text = other.text then some f else d.folder? other := by
  simp [setFolder, folder?]

/-- Changing what is in a folder makes no folder. -/
theorem sameFolders_setFolder {d : Disk} {path : Path} {f : Folder} (hf : d.folder? path = some f)
    (g : Folder) : SameFolders d (d.setFolder path g) := by
  refine ⟨rfl, ?_⟩
  intro other
  rw [folder?_setFolder]
  split
  · next h => rw [folder?, ← h, ← folder?, hf]; rfl
  · rfl

theorem sameFolders_setFile (d : Disk) (path : Path) (name : String) (data : ByteArray) :
    SameFolders d (d.setFile path name data) := by
  unfold setFile
  split
  · next f hf => exact sameFolders_setFolder hf _
  · exact ⟨rfl, fun _ => rfl⟩

theorem sameFolders_dropFile (d : Disk) (path : Path) (name : String) :
    SameFolders d (d.dropFile path name) := by
  unfold dropFile
  split
  · next f hf => exact sameFolders_setFolder hf _
  · exact ⟨rfl, fun _ => rfl⟩

/-- Between disks with the same folders a path leads to the same place, if it leads anywhere. -/
theorem walk_of_sameFolders {d d' : Disk} (h : SameFolders d d') {parts : List String} {dir : Path}
    {place : Place} (hw : d.walk dir parts = .ok place) : d'.walk dir parts = .ok place := by
  induction parts generalizing dir with
  | nil => exact hw
  | cons part rest ih =>
    unfold walk at hw ⊢
    rw [h.folders]
    -- each branch of the walk asks for folders only, and both disks answer alike
    split at hw
    · next hdot => rw [if_pos hdot]; exact ih hw
    · next hdot =>
      rw [if_neg hdot]
      split at hw
      · next hdots => rw [if_pos hdots]; exact ih hw
      · next hdots =>
        rw [if_neg hdots]
        split at hw
        · cases hw
        · next hlong =>
          rw [if_neg hlong]
          split at hw
          · next hfolder => rw [if_pos hfolder]; exact ih hw
          · next hfolder =>
            rw [if_neg hfolder]
            split at hw
            · next hlast => rw [if_pos hlast]; exact hw
            · split at hw <;> cases hw

theorem locate_of_sameFolders {d d' : Disk} (h : SameFolders d d') {path : String} {place : Place}
    (hl : d.locate path = .ok place) : d'.locate path = .ok place := by
  unfold locate at hl ⊢
  rw [h.here]
  split at hl
  · cases hl
  · next hzero =>
    rw [if_neg hzero]
    split at hl
    · cases hl
    · next hempty => rw [if_neg hempty]; exact walk_of_sameFolders h hl

theorem locateIn_of_sameFolders {d d' : Disk} (h : SameFolders d d') {base name : String}
    {place : Place} (hl : d.locateIn base name = .ok place) :
    d'.locateIn base name = .ok place := by
  unfold locateIn at hl ⊢
  split at hl
  · next hplain =>
    rw [if_pos hplain]
    split at hl
    · cases hl
    · next dir hdir => rw [locate_of_sameFolders h hdir]; exact walk_of_sameFolders h hl
    · split at hl <;> cases hl
  · next hplain => rw [if_neg hplain]; exact locate_of_sameFolders h hl

/-- From a folder an entry name leads to what the folder has under it. -/
theorem walk_singleton (d : Disk) (dir : Path) {name : String} (hn : IsEntryName name) :
    d.walk dir [name] =
      if Path.nameLimit < name.utf8ByteSize then .error .nameTooLong
      else if (d.folder? (dir ++ [name])).isSome then .ok (.folder (dir ++ [name]))
      else .ok (.entry dir name) := by
  obtain ⟨hne, hdot, hdots, -⟩ := hn
  simp [walk, hne, hdot, hdots]

/-- A part of a path without a zero character is a plain name. -/
theorem isPlainName_of_isEntryName {name : String} (hn : IsEntryName name)
    (hz : Char.ofNat 0 ∉ name.toList) : isPlainName name = true := by
  obtain ⟨hne, hdot, hdots, hslash⟩ := hn
  simp only [isPlainName, Bool.not_eq_true', Bool.or_eq_false_iff, decide_eq_false_iff_not]
  refine ⟨⟨⟨by simpa using hne, hdot⟩, hdots⟩, ?_⟩
  rw [List.any_eq_false]
  intro c hc
  simp only [Bool.or_eq_true, decide_eq_true_eq, not_or]
  exact ⟨fun e => hslash (e ▸ hc), fun e => hz (e ▸ hc)⟩

/-- A path with a zero character leads nowhere. -/
theorem locate_join_of_zero {d : Disk} {base name : String} (hz : Char.ofNat 0 ∈ name.toList) :
    d.locate (Path.join base name) = .error .zeroCharacter := by
  have hjoin : Char.ofNat 0 ∈ (Path.join base name).toList := by
    unfold Path.join
    split
    · exact hz
    · split <;> simp [hz]
  rw [locate, if_pos (by simpa using hjoin)]

/-! ## Files -/

theorem file?_setFile_self {d : Disk} {path : Path} {name : String} {data : ByteArray}
    (h : (d.folder? path).isSome = true) :
    (d.setFile path name data).file? path name = some data := by
  obtain ⟨f, hf⟩ := Option.isSome_iff_exists.1 h
  simp [setFile, hf, file?, folder?_setFolder]

/-- A folder that has the same under a name is not seen to change through it. -/
theorem file?_setFolder {d : Disk} {path : Path} {f g : Folder} {name : String}
    (hf : d.folder? path = some f) (h : g.get? name = f.get? name) (other : Path) :
    (d.setFolder path g).file? other name = d.file? other name := by
  unfold file?
  rw [folder?_setFolder]
  split
  · next ht =>
    have hother : d.folder? other = some f := by rw [folder?, ← ht, ← folder?, hf]
    rw [hother]
    exact h
  · rfl

theorem file?_setFile_of_ne {d : Disk} {path other : Path} {name name' : String} {data : ByteArray}
    (h : name ≠ name') : (d.setFile path name data).file? other name' = d.file? other name' := by
  unfold setFile
  split
  · next f hf => exact file?_setFolder hf (by rw [NameMap.get?_insert, if_neg h]) other
  · rfl

theorem file?_dropFile_self (d : Disk) (path : Path) (name : String) :
    (d.dropFile path name).file? path name = none := by
  unfold dropFile
  split
  · simp [file?, folder?_setFolder]
  · next hf => simp [file?, hf]

theorem file?_dropFile_of_ne {d : Disk} {path other : Path} {name name' : String}
    (h : name ≠ name') : (d.dropFile path name).file? other name' = d.file? other name' := by
  unfold dropFile
  split
  · next f hf => exact file?_setFolder hf (by rw [NameMap.get?_erase, if_neg h]) other
  · rfl

/-! ## Entries -/

/-- What a folder has under a name. -/
inductive Entry where
  | folder
  | file (data : ByteArray)

/-- What the folder at a path has under a name. -/
def entryAt (d : Disk) (dir : Path) (name : String) : Option Entry :=
  if (d.folder? (dir ++ [name])).isSome then some .folder else (d.file? dir name).map .file

theorem entryAt_eq_folder_iff {d : Disk} {dir : Path} {name : String} :
    d.entryAt dir name = some .folder ↔ (d.folder? (dir ++ [name])).isSome = true := by
  unfold entryAt
  split <;> simp_all

/-- Where no folder is in its way, a file is an entry. -/
theorem file?_eq_of_entryAt_eq {d d' : Disk} {dir : Path} {name : String}
    (h : d'.entryAt dir name = d.entryAt dir name)
    (hf : (d.folder? (dir ++ [name])).isSome = false) : d'.file? dir name = d.file? dir name := by
  have hf' : (d'.folder? (dir ++ [name])).isSome = false := by
    rw [Bool.eq_false_iff, Ne, ← entryAt_eq_folder_iff, h, entryAt_eq_folder_iff, hf]
    exact Bool.false_ne_true
  simpa [entryAt, hf, hf', Option.map_inj_right] using h

theorem entryAt_setFile_self {d : Disk} {dir : Path} {name : String} {data : ByteArray}
    (h : (d.folder? dir).isSome = true) (hno : (d.folder? (dir ++ [name])).isSome = false) :
    (d.setFile dir name data).entryAt dir name = some (.file data) := by
  unfold entryAt
  rw [(sameFolders_setFile d dir name data).folders, hno, file?_setFile_self h]
  rfl

end Disk

namespace Storage

/-- An entry name is looked up in the home. -/
theorem locate_eq (s : Storage) (d : Disk) {name : String} (hn : IsEntryName name) :
    s.locate d name =
      if Char.ofNat 0 ∈ name.toList then .error .zeroCharacter
      else s.home d >>= fun dir => d.walk dir [name] := by
  unfold locate Disk.locateIn
  by_cases hz : Char.ofNat 0 ∈ name.toList
  · rw [if_pos hz]
    have hplain : Disk.isPlainName name = false := by
      simp only [Disk.isPlainName, Bool.not_eq_false', Bool.or_eq_true, List.any_eq_true]
      exact Or.inr ⟨_, hz, by decide⟩
    rw [if_neg (by simp [hplain])]
    exact Disk.locate_join_of_zero hz
  · rw [if_neg hz]
    have hplain := Disk.isPlainName_of_isEntryName hn hz
    by_cases hb : s.base.isEmpty = true
    · -- the name alone is looked up, from the present folder
      have hroot : name.startsWith "/" = false := by
        rw [Bool.eq_false_iff, Ne, String.startsWith_string_iff]
        intro hp
        exact hn.2.2.2 (hp.subset (by decide))
      have hparts : Path.parts name = [name] := by
        simp [Path.parts, List.splitOn_eq_singleton hn.2.2.2]
      have hzero : ¬name.toList.contains (Char.ofNat 0) = true := by simpa using hz
      have hempty : ¬name.isEmpty = true := by simpa using hn.1
      rw [if_neg (by simp [hb]), home, if_pos hb, Path.join, if_neg (by simp [hroot]),
        if_pos (Or.inl hb), String.isEmpty_iff.1 hb, String.empty_append, Disk.locate,
        if_neg hzero, if_neg hempty, if_neg (by simp [hroot]), hparts]
      rfl
    · rw [if_pos (by simp [hplain, hb]), home, if_neg hb]
      cases d.locate s.base with
      | error e => rfl
      | ok place =>
        cases place with
        | folder dir => rfl
        | entry dir file =>
          simp only []
          split <;> rfl

/-- What an entry name leads to lies directly in the home, under this name. -/
theorem home_of_locate {s : Storage} {d : Disk} {name : String} {place : Place}
    (hn : IsEntryName name) (h : s.locate d name = .ok place) :
    ∃ dir, s.home d = .ok dir ∧ d.walk dir [name] = .ok place ∧
      (place = .entry dir name ∨ place = .folder (dir ++ [name])) := by
  rw [locate_eq s d hn] at h
  split at h
  · cases h
  · obtain ⟨dir, hdir, hwalk⟩ := except_bind_eq_ok h
    refine ⟨dir, hdir, hwalk, ?_⟩
    rw [Disk.walk_singleton d dir hn] at hwalk
    split at hwalk
    · cases hwalk
    · split at hwalk
      · cases hwalk
        exact Or.inr rfl
      · cases hwalk
        exact Or.inl rfl

/-- An entry name leads to an entry with its own name, if to an entry at all. -/
theorem locate_entry {s : Storage} {d : Disk} {name file : String} {path : Path}
    (hn : IsEntryName name) (h : s.locate d name = .ok (.entry path file)) : file = name := by
  obtain ⟨dir, -, -, hplace | hplace⟩ := home_of_locate hn h
  · cases hplace
    rfl
  · cases hplace

/-- Where an entry name leads to an entry, there is no folder of this name. -/
theorem home_of_locate_entry {s : Storage} {d : Disk} {name : String} {dir : Path}
    (hn : IsEntryName name) (h : s.locate d name = .ok (.entry dir name)) :
    s.home d = .ok dir ∧ (d.folder? (dir ++ [name])).isSome = false := by
  obtain ⟨home, hhome, hwalk, hplace | hplace⟩ := home_of_locate hn h
  · cases hplace
    refine ⟨hhome, ?_⟩
    rw [Disk.walk_singleton d dir hn] at hwalk
    rw [Bool.eq_false_iff]
    intro hf
    rw [if_pos hf] at hwalk
    split at hwalk <;> cases hwalk
  · cases hplace

/-! ## Disks with the same entries -/

/-- The same home, with the same under the names of a family. -/
structure SameEntries (s : Storage) (P : String → Prop) (d d' : Disk) : Prop where
  home : s.home d' = s.home d
  there : ∀ dir, s.home d = .ok dir → (d'.folder? dir).isSome = (d.folder? dir).isSome
  entries : ∀ dir, s.home d = .ok dir → ∀ name, P name → d'.entryAt dir name = d.entryAt dir name

namespace SameEntries

variable {s : Storage} {P Q : String → Prop} {d d' d₁ d₂ d₃ : Disk}

theorem refl (s : Storage) (P : String → Prop) (d : Disk) : s.SameEntries P d d :=
  ⟨rfl, fun _ _ => rfl, fun _ _ _ _ => rfl⟩

theorem symm (h : s.SameEntries P d d') : s.SameEntries P d' d :=
  ⟨h.home.symm, fun dir hdir => (h.there dir (h.home ▸ hdir)).symm,
    fun dir hdir name hn => (h.entries dir (h.home ▸ hdir) name hn).symm⟩

theorem trans (h : s.SameEntries P d₁ d₂) (h' : s.SameEntries P d₂ d₃) : s.SameEntries P d₁ d₃ :=
  ⟨h'.home.trans h.home,
    fun dir hdir => (h'.there dir (h.home.trans hdir)).trans (h.there dir hdir),
    fun dir hdir name hn =>
      (h'.entries dir (h.home.trans hdir) name hn).trans (h.entries dir hdir name hn)⟩

theorem mono (h : s.SameEntries P d d') (hPQ : ∀ name, Q name → P name) : s.SameEntries Q d d' :=
  ⟨h.home, h.there, fun dir hdir name hn => h.entries dir hdir name (hPQ name hn)⟩

/-- Through a name of the family the disks look the same. -/
theorem locate_eq (h : s.SameEntries P d d') {name : String} (hP : P name) (hn : IsEntryName name) :
    s.locate d' name = s.locate d name := by
  rw [Storage.locate_eq s d hn, Storage.locate_eq s d' hn, h.home]
  split
  · rfl
  · cases hdir : s.home d with
    | error e => rfl
    | ok dir =>
      have hf : (d'.folder? (dir ++ [name])).isSome = (d.folder? (dir ++ [name])).isSome := by
        rw [Bool.eq_iff_iff, ← Disk.entryAt_eq_folder_iff, ← Disk.entryAt_eq_folder_iff,
          h.entries dir hdir name hP]
      show d'.walk dir [name] = d.walk dir [name]
      rw [Disk.walk_singleton d dir hn, Disk.walk_singleton d' dir hn, hf]

theorem file?_eq (h : s.SameEntries P d d') {name : String} {dir : Path} (hP : P name)
    (hn : IsEntryName name) (hl : s.locate d name = .ok (.entry dir name)) :
    d'.file? dir name = d.file? dir name ∧ (d'.folder? dir).isSome = (d.folder? dir).isSome := by
  obtain ⟨hhome, hno⟩ := home_of_locate_entry hn hl
  exact ⟨Disk.file?_eq_of_entryAt_eq (h.entries dir hhome name hP) hno, h.there dir hhome⟩

end SameEntries

theorem home_of_sameFolders {s : Storage} {d d' : Disk} {dir : Path} (h : Disk.SameFolders d d')
    (hd : s.home d = .ok dir) : s.home d' = .ok dir := by
  unfold home at hd ⊢
  rw [h.here]
  split at hd
  · next hb => rw [if_pos hb, ← hd]
  · next hb =>
    rw [if_neg hb]
    split at hd
    · cases hd
    · next hbase => rw [Disk.locate_of_sameFolders h hbase, ← hd]
    · split at hd <;> cases hd

/-- What changes only one entry leaves the others as they were. -/
theorem sameEntries_of_locate {s : Storage} {d d' : Disk} {name : String} {place : Place}
    (hn : IsEntryName name) (hl : s.locate d name = .ok place) (hf : Disk.SameFolders d d')
    (h : ∀ dir other, name ≠ other → d'.file? dir other = d.file? dir other) :
    s.SameEntries (· ≠ name) d d' := by
  obtain ⟨dir, hdir, -⟩ := home_of_locate hn hl
  refine ⟨(home_of_sameFolders hf hdir).trans hdir.symm, fun dir _ => hf.folders dir,
    fun dir _ other hne => ?_⟩
  unfold Disk.entryAt
  rw [hf.folders, h dir other hne.symm]

theorem sameEntries_setFile {s : Storage} {d : Disk} {path : Path} {name file : String}
    (hn : IsEntryName name) (hl : s.locate d name = .ok (.entry path file)) (data : ByteArray) :
    s.SameEntries (· ≠ name) d (d.setFile path file data) := by
  obtain rfl := locate_entry hn hl
  exact sameEntries_of_locate hn hl (Disk.sameFolders_setFile d path file data)
    fun _ _ hne => Disk.file?_setFile_of_ne hne

/-- The same file put on both disks leaves the same entries. -/
theorem SameEntries.setFile {s : Storage} {P : String → Prop} {d d' : Disk}
    (h : s.SameEntries P d d') {name : String} {dir : Path} (hP : P name) (hn : IsEntryName name)
    (hl : s.locate d name = .ok (.entry dir name)) (hf : (d.folder? dir).isSome = true)
    (data : ByteArray) : s.SameEntries P (d.setFile dir name data) (d'.setFile dir name data) := by
  have hl' : s.locate d' name = .ok (.entry dir name) := (h.locate_eq hP hn).trans hl
  have hf' : (d'.folder? dir).isSome = true := (h.file?_eq hP hn hl).2.trans hf
  have hput := sameEntries_setFile hn hl data
  have hput' := sameEntries_setFile hn hl' data
  have hboth := (hput.symm.mono fun x (hx : P x ∧ x ≠ name) => hx.2).trans
    ((h.mono fun x hx => hx.1).trans (hput'.mono fun x hx => hx.2))
  refine ⟨hboth.home, hboth.there, fun path hpath other hother => ?_⟩
  by_cases heq : other = name
  · subst heq
    obtain ⟨hhome, hno⟩ := home_of_locate_entry hn hl
    obtain rfl : path = dir := by
      rw [hput.home, hhome] at hpath
      cases hpath
      rfl
    rw [Disk.entryAt_setFile_self hf hno, Disk.entryAt_setFile_self hf'
      (home_of_locate_entry hn hl').2]
  · exact hboth.entries path hpath other ⟨hother, heq⟩

theorem sameEntries_dropFile {s : Storage} {d : Disk} {path : Path} {name file : String}
    (hn : IsEntryName name) (hl : s.locate d name = .ok (.entry path file)) :
    s.SameEntries (· ≠ name) d (d.dropFile path file) := by
  obtain rfl := locate_entry hn hl
  exact sameEntries_of_locate hn hl (Disk.sameFolders_dropFile d path file)
    fun _ _ hne => Disk.file?_dropFile_of_ne hne

end Storage

/-- The entries of a family are kept, and what no operation sets. -/
def Act.Frame.entries {ω : Type} (s : Storage) (P : String → Prop) : Act.Frame ω where
  keeps w w' := s.SameEntries P w.disk w'.disk ∧ w.SameSetting w'
  alike h := ⟨h.disk ▸ .refl s P _, h.toSameSetting⟩
  trans h h' := ⟨h.1.trans h'.1, h.2.trans h'.2⟩

end Keepsake
