import Keepsake.CommandLine
import Keepsake.Proofs.BackupList
import Keepsake.Proofs.BackupName
import Keepsake.Proofs.Puts
/-!
# Which save files a folder shows

All that engines put into a folder has a name of one of their save-files (`FilesOwned`): save files
and backups stay, and a temporary file is left where an engine was cut off. This is kept by all
operations of all engines, one after the other, on whichever disk, as the names of their
save-files are accepted.

In such a folder the suffix is enough to tell save files from all else. But the listing also passes
over every file with a point in front, and names may begin with one. So it shows exactly the
save-files whose name does not, each once (`savedNames_of_filled`).
-/

namespace Keepsake

/-! ## Names of save files -/

/-- Whether the settings of a save-file may have the name. -/
def IsSaveName (name : String) : Prop := ∃ f : FileSettings, f.check = .ok () ∧ f.name = name

theorem IsSaveName.ne_empty {name : String} (h : IsSaveName name) : name ≠ "" := by
  obtain ⟨f, hcheck, rfl⟩ := h
  rintro hempty
  simp [FileSettings.check, hempty] at hcheck

theorem dropFront?_eq_some_iff {front cs rest : List Char} :
    dropFront? front cs = some rest ↔ cs = front ++ rest :=
  ⟨eq_append_of_dropFront?, fun h => h ▸ dropFront?_append front rest⟩

theorem startsWith_canonicalName {name : String} (hne : name ≠ "") :
    (canonicalName name).startsWith "." = name.startsWith "." := by
  have hpoint : ".".toList = ['.'] := rfl
  have hlist : name.toList ≠ [] := by simpa using hne
  rw [Bool.eq_iff_iff, String.startsWith_string_iff, String.startsWith_string_iff, canonicalName,
    String.toList_append, hpoint]
  cases hname : name.toList with
  | nil => exact absurd hname hlist
  | cons first rest => simp [List.cons_prefix_cons]

theorem savedName?_eq (file : String) : savedName? file =
    if file.startsWith "." then none
    else (dropFront? saveSuffix.toList.reverse file.toList.reverse).bind fun cs =>
      if cs = [] then none else some (String.ofList cs.reverse) := by
  unfold savedName?
  split
  · rfl
  · split <;> simp_all

/-- A save file is shown under its name, unless there is a point in front. -/
theorem savedName?_eq_some_iff {file name : String} : savedName? file = some name ↔
    file = canonicalName name ∧ name ≠ "" ∧ name.startsWith "." = false := by
  have hsuffix : ∀ cs, dropFront? saveSuffix.toList.reverse file.toList.reverse = some cs ↔
      file = canonicalName (String.ofList cs.reverse) := fun cs => by
    rw [dropFront?_eq_some_iff, List.reverse_eq_iff, ← String.toList_inj, canonicalName,
      String.toList_append, String.toList_ofList, List.reverse_append, List.reverse_reverse]
  rw [savedName?_eq, Option.ite_none_left_eq_some, Option.bind_eq_some_iff]
  constructor
  · rintro ⟨hpoint, cs, hcs, hname⟩
    obtain ⟨hne, hname⟩ := Option.ite_none_left_eq_some.1 hname
    cases hname
    obtain rfl := (hsuffix cs).1 hcs
    have hempty : String.ofList cs.reverse ≠ "" := by simpa using hne
    refine ⟨rfl, hempty, ?_⟩
    rw [← startsWith_canonicalName hempty]
    simpa using hpoint
  · rintro ⟨rfl, hne, hpoint⟩
    rw [← startsWith_canonicalName hne] at hpoint
    refine ⟨by simpa using hpoint, name.toList.reverse, (hsuffix _).2 (by simp), ?_⟩
    simpa using hne

theorem IsNameOf.eq_of_canonicalName {name other : String}
    (h : IsNameOf name (canonicalName other)) : name = other := by
  generalize hfile : canonicalName other = file at h
  cases h with
  | lasting h => exact h.injective (hfile ▸ .canonical)
  | temporary letters _ =>
    have hother : IsLastingName other (canonicalName other) := .canonical
    exact absurd hfile (hother.ne_temporaryNameWith letters (canonicalName name))

/-! ## Folders -/

/-- All files in the folder at a path have names of save-files. -/
def FilesOwned (base : String) (d : Disk) : Prop :=
  ∀ dir, d.locate base = .ok (.folder dir) → ∀ file, (d.file? dir file).isSome = true →
    ∃ name, IsSaveName name ∧ IsNameOf name file

theorem FilesOwned.setFile {base : String} {d : Disk} (h : FilesOwned base d) {name file : String}
    (hname : IsSaveName name) (hfile : IsNameOf name file) (path : Path) (data : ByteArray) :
    FilesOwned base (d.setFile path file data) := by
  intro dir hdir other hother
  have hd := Disk.locate_of_sameFolders (Disk.sameFolders_setFile d path file data).symm hdir
  by_cases heq : file = other
  · exact ⟨name, hname, heq ▸ hfile⟩
  · rw [Disk.file?_setFile_of_ne heq] at hother
    exact h dir hd other hother

/-- Whatever engines put into a folder has names of their save-files. -/
theorem allPutsKeep_filesOwned (base : String) : Engine.AllPutsKeep fun _ => FilesOwned base :=
  fun _ f hcheck _ path _ data hfile _ h => h.setFile ⟨f, hcheck, rfl⟩ (.lasting hfile) path data

/--
Disks on which the folder at a path was filled by engines: without files at first, then with what
operations of engines with accepted names have put there, and with temporary files that they have
left.
-/
inductive Filled (base : String) : Disk → Prop where
  | bare {d : Disk} (empty : ∀ dir, d.locate base = .ok (.folder dir) →
      ∀ file, d.file? dir file = none) : Filled base d
  | operation {ω : Type} {e : Engine ω} {w : World ω} (filled : Filled base w.disk)
    (names : e.WellNamed) (op : Operation ω) : Filled base (e.perform w op).2.disk
  | leftover {d : Disk} (filled : Filled base d) {name : String} (accepted : IsSaveName name)
    {letters : List Char} (plain : ∀ c ∈ letters, c.isAlphanum = true) (path : Path)
    (data : ByteArray) :
    Filled base (d.setFile path (Storage.temporaryNameWith letters (canonicalName name)) data)

theorem Filled.owned {base : String} {d : Disk} (h : Filled base d) : FilesOwned base d := by
  induction h with
  | bare empty =>
    intro dir hdir file hfile
    rw [empty dir hdir file] at hfile
    cases hfile
  | operation _ names op ih =>
    exact ((Engine.invariant_of_puts (allPutsKeep_filesOwned base)).perform ⟨names, ih⟩ op).2
  | leftover _ accepted plain path data ih =>
    exact ih.setFile accepted (.temporary _ plain) path data

/-! ## Listings -/

namespace CommandLine.Workplace

variable {p : Workplace}

/-- Where no fault strikes, a save file is read or the reading fails. -/
theorem readSave_cases (hp : p.storage.exposed = false) (name : String) (w : World Unit) :
    (∃ s w', p.readSave name w = (.ok s, w')) ∨ ∃ e w', p.readSave name w = (.fail e, w') := by
  have hcalm : p.storage.Calm w := fun hexposed => by rw [hp] at hexposed; cases hexposed
  have hanswer : ∀ x : Except Failure Snapshot,
      (∃ s w', (Act.ofExcept x : Act Unit Failure _) w.called = (.ok s, w')) ∨
        ∃ e w', (Act.ofExcept x : Act Unit Failure _) w.called = (.fail e, w') := fun x => by
    cases x with
    | error e => exact Or.inr ⟨e, _, rfl⟩
    | ok s => exact Or.inl ⟨s, _, rfl⟩
  unfold readSave Storage.load
  rw [Act.bind_apply, hcalm.call_eq, Act.get_bind]
  generalize Storage.orFail _ _ = data
  cases data with
  | error e => exact Or.inr ⟨e, _, rfl⟩
  | ok data => exact hanswer (p.format.decode data)

/-- A save file has a row with its name in front, whether or not it can be read. -/
theorem saveRows_cons (hp : p.storage.exposed = false) (name : String) (rest : List String)
    (w : World Unit) : ∃ shown w₁, p.saveRows (name :: rest) w = (do
      let rows ← p.saveRows rest
      pure ((name :: shown) :: rows)) w₁ := by
  rw [saveRows]
  obtain ⟨s, w₁, hread⟩ | ⟨e, w₁, hread⟩ := readSave_cases hp name w
  · rw [Act.bind_of_ok (Act.attempt_of_ok hread)]
    exact ⟨_, w₁, rfl⟩
  · rw [Act.bind_of_ok (Act.attempt_of_fail hread)]
    exact ⟨_, w₁, rfl⟩

/-- There is a row for each save file, with its name in front. -/
theorem saveRows_run (hp : p.storage.exposed = false) (names : List String) (w : World Unit) :
    ∃ rows w', p.saveRows names w = (.ok rows, w') ∧ rows.map List.head? = names.map some := by
  induction names generalizing w with
  | nil => exact ⟨[], w, rfl, rfl⟩
  | cons name rest ih =>
    obtain ⟨shown, w₁, hrow⟩ := saveRows_cons hp name rest w
    obtain ⟨rows, w', hrows, hnames⟩ := ih w₁
    refine ⟨(name :: shown) :: rows, w', ?_, by simp [hnames]⟩
    rw [hrow, Act.bind_of_ok hrows]
    rfl

end CommandLine.Workplace

/--
Of a folder that engines have filled the listing shows exactly the save-files with accepted names
whose save file is there, but for those with a point in front of the name, and each once. No backup
and no temporary file is shown.
-/
theorem savedNames_of_filled {base : String} {w : World Unit} (h : Filled base w.disk) {dir : Path}
    {f : Folder} (hd : w.disk.locate base = .ok (.folder dir)) (hf : w.disk.folder? dir = some f) :
    ∃ files w₁, ((Storage.plain base).list : Act Unit Failure _) w = (.ok files, w₁) ∧
      (files.filterMap savedName?).Nodup ∧
      (∀ name, name ∈ files.filterMap savedName? ↔ IsSaveName name ∧
        (w.disk.file? dir (canonicalName name)).isSome = true ∧ name.startsWith "." = false) ∧
      ∀ format found, ∃ rows w₂, CommandLine.Workplace.saveRows ⟨Storage.plain base, format, found⟩
          (files.filterMap savedName?) w₁ = (.ok rows, w₂) ∧
        rows.map List.head? = (files.filterMap savedName?).map some := by
  have hlist : ((Storage.plain base).list : Act Unit Failure _) w = (.ok f.keys, w.called) := by
    rcases Storage.list_run (s := Storage.plain base) hd hf with hlist | ⟨hcalm, -⟩
    · exact hlist
    · exact absurd (fun hexposed => by cases hexposed) hcalm
  have hthere : ∀ file, file ∈ f.keys ↔ (w.disk.file? dir file).isSome = true := fun file => by
    rw [NameMap.mem_keys_iff, Disk.file?, hf]
    rfl
  refine ⟨f.keys, w.called, hlist, ?_, fun name => ?_, fun format found =>
    CommandLine.Workplace.saveRows_run rfl _ _⟩
  · refine (f.keys_ascending.imp String.ne_of_lt).filterMap _ fun a b hne n hn n' hn' heq => ?_
    rw [(savedName?_eq_some_iff.1 hn).1, (savedName?_eq_some_iff.1 hn').1, heq] at hne
    exact hne rfl
  · rw [List.mem_filterMap]
    constructor
    · rintro ⟨file, hfile, hsaved⟩
      obtain ⟨rfl, -, hpoint⟩ := savedName?_eq_some_iff.1 hsaved
      obtain ⟨owner, haccepted, howner⟩ := h.owned dir hd _ ((hthere _).1 hfile)
      obtain rfl := howner.eq_of_canonicalName
      exact ⟨haccepted, (hthere _).1 hfile, hpoint⟩
    · rintro ⟨haccepted, hfile, hpoint⟩
      exact ⟨_, (hthere _).2 hfile, savedName?_eq_some_iff.2 ⟨rfl, haccepted.ne_empty, hpoint⟩⟩

namespace Sample

/-- An engine with a save-file that has a point in front of its name, and a tick. -/
def pointed : Engine Cell × World Cell :=
  (engine [.file (FileSettings.named ".hidden")]).perform
    (world (Cell.ofValue (.text "hello")) Disk.bare) (.tick 5)

theorem filled_bare : Filled "/" Disk.bare := by
  refine .bare fun dir hdir file => ?_
  have hroot : Disk.bare.locate "/" = .ok (.folder []) :=
    except_eq_ok_of_toOption (by decide +kernel)
  cases hroot.symm.trans hdir
  rfl

theorem filled_pointed : Filled "/" pointed.2.disk := by
  unfold pointed
  have hreached := reached [.file (FileSettings.named ".hidden")]
    (world (Cell.ofValue (.text "hello")) Disk.bare)
  exact .operation filled_bare hreached.sound.wellNamed (.tick 5)

end Sample

theorem savedNames_of_filled_sample :
    Filled "/" Sample.pointed.2.disk ∧
      ∃ files w₁, ((Storage.plain "/").list : Act Unit Failure _)
          (Sample.world () Sample.pointed.2.disk) = (.ok files, w₁) ∧
        (files.filterMap savedName?).Nodup ∧ "auto" ∈ files.filterMap savedName? := by
  have haccepted : IsSaveName "auto" :=
    ⟨FileSettings.named "auto", except_eq_ok_of_isOk (by decide +kernel), rfl⟩
  have hshown : ∀ d : Disk, Filled "/" d → d.locate "/" = .ok (.folder []) →
      (d.folder? []).isSome = true → (d.file? [] (canonicalName "auto")).isSome = true →
      ∃ files w₁, ((Storage.plain "/").list : Act Unit Failure _) (Sample.world () d)
          = (.ok files, w₁) ∧
        (files.filterMap savedName?).Nodup ∧ "auto" ∈ files.filterMap savedName? := by
    intro d h hroot hthere hfile
    obtain ⟨f, hf⟩ := Option.isSome_iff_exists.1 hthere
    obtain ⟨files, w₁, hlist, hnodup, hiff, -⟩ :=
      savedNames_of_filled (w := Sample.world () d) h hroot hf
    exact ⟨files, w₁, hlist, hnodup, (hiff "auto").2 ⟨haccepted, hfile, by decide +kernel⟩⟩
  exact ⟨Sample.filled_pointed, hshown _ Sample.filled_pointed
    (except_eq_ok_of_toOption (by decide +kernel)) (by decide +kernel) (by decide +kernel)⟩

/-- A save-file with a point in front of its name is not shown, although its save file is there. -/
theorem savedNames_pointed :
    IsSaveName ".hidden" ∧ Filled "/" Sample.pointed.2.disk ∧
      (Sample.pointed.2.disk.file? [] (canonicalName ".hidden")).isSome = true ∧
      (((Storage.plain "/").list : Act Unit Failure _)
        (Sample.world () Sample.pointed.2.disk)).1 = .ok [".hidden.softsav", "auto.softsav"] ∧
      [".hidden.softsav", "auto.softsav"].filterMap savedName? = ["auto"] :=
  ⟨⟨FileSettings.named ".hidden", except_eq_ok_of_isOk (by decide +kernel), rfl⟩,
    Sample.filled_pointed, by decide +kernel, by decide +kernel, by decide +kernel⟩

end Keepsake
