import Keepsake.Proofs.Temporary
/-!
# What a storage holds under a name

`content?` is the file that a name leads to. The operations of a storage are told by what they do
to it: each either has its whole effect and answers, or has none. What has been put under one name
is held there, and every other entry of the folder is as it was (`Puts`).
-/

namespace Keepsake

/-! ## Contents -/

namespace Storage

/-- The file that a storage holds under a name. -/
def content? (s : Storage) (d : Disk) (name : String) : Option ByteArray :=
  match s.locate d name with
  | .ok (.entry path file) => d.file? path file
  | _ => none

/-- A file is there exactly if something is held under its name. -/
theorem contains_eq (s : Storage) (d : Disk) (name : String) :
    s.contains d name = (s.content? d name).isSome := by
  unfold contains content? Disk.isFile
  cases s.locate d name with
  | error e => rfl
  | ok place => cases place <;> rfl

/-- Reading gives what is held. -/
theorem read_eq_ok_iff {s : Storage} {d : Disk} {name : String} {data : ByteArray} :
    d.read (s.locate d name) = .ok data ↔ s.content? d name = some data := by
  unfold content? Disk.read
  cases s.locate d name with
  | error e => simp
  | ok place =>
    cases place with
    | folder path => simp
    | entry path file => cases h : d.file? path file <;> simp [h]

/-- What is held under a name depends on its entry alone. -/
theorem SameEntries.content?_eq {s : Storage} {P : String → Prop} {d d' : Disk}
    (h : s.SameEntries P d d') {name : String} (hP : P name) (hn : IsEntryName name) :
    s.content? d' name = s.content? d name := by
  unfold content?
  rw [h.locate_eq hP hn]
  split
  · next hl =>
    obtain rfl := locate_entry hn hl
    exact (h.file?_eq hP hn hl).1
  · rfl

/-- What was put under a name is held there. -/
theorem content?_setFile_self {s : Storage} {d : Disk} {path : Path} {name file : String}
    {data : ByteArray} (hl : s.locate d name = .ok (.entry path file))
    (hf : (d.folder? path).isSome = true) :
    s.content? (d.setFile path file data) name = some data := by
  unfold content?
  rw [show s.locate (d.setFile path file data) name = .ok (.entry path file) from
    Disk.locateIn_of_sameFolders (Disk.sameFolders_setFile d path file data) hl]
  exact Disk.file?_setFile_self hf

/-! ## Operations -/

variable {ω : Type}

/-- One name has new content; every other entry is what it was. -/
structure Puts (s : Storage) (d d' : Disk) (name : String) (data : ByteArray) : Prop where
  written : s.content? d' name = some data
  entries : s.SameEntries (· ≠ name) d d'

theorem Puts.others {s : Storage} {d d' : Disk} {name : String} {data : ByteArray}
    (h : s.Puts d d' name data) (other : String) (ho : IsEntryName other) (hne : other ≠ name) :
    s.content? d' other = s.content? d other :=
  h.entries.content?_eq hne ho

theorem puts_setFile {s : Storage} {d : Disk} {path : Path} {name file : String} {data : ByteArray}
    (hn : IsEntryName name) (hl : s.locate d name = .ok (.entry path file))
    (hf : (d.folder? path).isSome = true) : s.Puts d (d.setFile path file data) name data :=
  ⟨content?_setFile_self hl hf, sameEntries_setFile hn hl data⟩

/-- Nothing strikes the storage. -/
def Calm (s : Storage) (w : World ω) : Prop :=
  s.exposed = true → (∀ n c, w.plan n c = none) ∧ ∀ n, w.probes n = none

theorem Calm.of_sameSetting {s : Storage} {w w' : World ω} (h : s.Calm w) (hs : w.SameSetting w') :
    s.Calm w' := fun he => by
  rw [hs.plan, hs.probes]
  exact h he

theorem Calm.called {s : Storage} {w : World ω} (h : s.Calm w) : s.Calm w.called :=
  h.of_sameSetting w.alike_called.toSameSetting

theorem Calm.callInSteps_eq {s : Storage} {w : World ω} {α : Type} (h : s.Calm w) (c : Call)
    (x : Outcome Failure Unit → Act ω Failure α) : s.callInSteps c x w = x (.ok ()) w.called := by
  have hfault : (if s.exposed then w.plan w.calls c else none) = none := by
    split
    · next he => exact (h he).1 _ _
    · rfl
  unfold callInSteps
  rw [hfault]

theorem Calm.call_eq {s : Storage} {w : World ω} {α : Type} (h : s.Calm w) (c : Call)
    (x : Act ω Failure α) : s.call c x w = x w.called := by
  unfold call
  rw [h.callInSteps_eq, Act.ofOutcome_ok_bind]

/-- A call goes through, is struck while it goes on, or stops before it begins. -/
theorem callInSteps_cases {α : Type} (s : Storage) (c : Call)
    (x : Outcome Failure Unit → Act ω Failure α) (w : World ω) :
    s.callInSteps c x w = x (.ok ()) w.called ∨
      (∃ late, late.IsStop ∧ s.callInSteps c x w = x late w.called) ∨
      ((s.callInSteps c x w).1.IsStop ∧ (s.callInSteps c x w).2 = w.called) := by
  unfold callInSteps
  cases if s.exposed then w.plan w.calls c else none with
  | none => exact Or.inl rfl
  | some fault =>
    cases fault with
    | fail f => exact Or.inr (Or.inr ⟨Outcome.isStop_fail f, rfl⟩)
    | panic p => exact Or.inr (Or.inr ⟨Outcome.isStop_panic p, rfl⟩)
    | failStaged f => exact Or.inr (Or.inl ⟨.fail f, Outcome.isStop_fail f, rfl⟩)
    | panicStaged p => exact Or.inr (Or.inl ⟨.panic p, Outcome.isStop_panic p, rfl⟩)

/-- A call of a single step goes through, or is struck: then it stops without an effect. -/
theorem call_cases {α : Type} (s : Storage) (c : Call) (x : Act ω Failure α) (w : World ω) :
    s.call c x w = x w.called ∨
      ¬s.Calm w ∧ (s.call c x w).1.IsStop ∧ (s.call c x w).2 = w.called := by
  by_cases hcalm : s.Calm w
  · exact Or.inl (hcalm.call_eq c x)
  · unfold call
    rcases callInSteps_cases s c (fun late => do Act.ofOutcome late; x) w with
      h | ⟨late, hlate, h⟩ | hstop
    · exact Or.inl h
    · rw [h]
      exact Or.inr ⟨hcalm, Act.bind_of_eq_stop _ (Act.ofOutcome_apply late w.called) hlate⟩
    · exact Or.inr ⟨hcalm, hstop⟩

/-- A probe answers, or a panic strikes it. -/
theorem probe_cases {ε : Type} (s : Storage) (name : String) (w : World ω) :
    (s.probe name : Act ω ε Bool) w = (.ok (s.contains w.disk name), w.called) ∨
      ¬s.Calm w ∧ ∃ p, (s.probe name : Act ω ε Bool) w = (.panic p, w.called) := by
  unfold probe
  cases hp : if s.exposed then w.probes w.calls else none with
  | none => exact Or.inl rfl
  | some p =>
    refine Or.inr ⟨fun hcalm => ?_, p, rfl⟩
    split at hp
    · next he =>
      rw [(hcalm he).2] at hp
      cases hp
    · cases hp

/-- A probe changes nothing. -/
theorem within_probe {ε : Type} {F : Act.Frame ω} (s : Storage) (name : String) :
    Act.Within F (s.probe name : Act ω ε Bool) := by
  intro w
  rcases probe_cases (ε := ε) s name w with h | ⟨-, p, h⟩ <;>
    · rw [h]
      exact F.alike w.alike_called

theorem Calm.probe_eq {ε : Type} {s : Storage} {w : World ω} (h : s.Calm w) (name : String) :
    (s.probe name : Act ω ε Bool) w = (.ok (s.contains w.disk name), w.called) :=
  (probe_cases s name w).resolve_right fun hstruck => hstruck.1 h

/-- A change of the disk is made or refused. -/
theorem onDisk_orFail_cases (task : String) (f : Disk → Except DiskFault Disk) (w : World ω) :
    (∃ d', f w.disk = .ok d' ∧
        Act.onDisk (fun d => orFail task (f d)) w = (.ok (), { w with disk := d' })) ∨
      ((Act.onDisk (fun d => orFail task (f d)) w).1.IsStop ∧
        (Act.onDisk (fun d => orFail task (f d)) w).2 = w) := by
  unfold Act.onDisk orFail
  cases h : f w.disk with
  | ok d' => exact Or.inl ⟨d', rfl, by simp [h]⟩
  | error e => exact Or.inr ⟨by simp [h, Outcome.isStop_fail], by simp [h]⟩

/-- What a copy does that is not one of a file over itself. -/
theorem copy_eq_ok {s : Storage} {d d' : Disk} {source target : String}
    (hne : ∀ path file, s.locate d source = .ok (.entry path file) →
      s.locate d target ≠ .ok (.entry path file))
    (h : d.copy (s.locate d source) (s.locate d target) = .ok d') :
    ∃ data path file, s.content? d source = some data ∧
      s.locate d target = .ok (.entry path file) ∧ (d.folder? path).isSome = true ∧
        d' = d.setFile path file data := by
  unfold Disk.copy at h
  split at h
  · cases h
  · cases h
  · next p f hsource =>
    split at h
    · cases h
    · next data hdata =>
      have hcontent : s.content? d source = some data := by simp [content?, hsource, hdata]
      split at h
      · next dest file htarget =>
        have hplace : ¬(p = dest ∧ f = file) := by
          rintro ⟨rfl, rfl⟩
          exact hne p f hsource htarget
        rw [if_neg hplace] at h
        obtain ⟨path, file, hentry, hf, rfl⟩ := Disk.write_eq_ok h
        exact ⟨data, path, file, hcontent, hentry, hf, rfl⟩
      · next hno =>
        obtain ⟨path, file, hentry, -, -⟩ := Disk.write_eq_ok h
        exact absurd hentry (hno path file)

/--
Replacing a file puts it into its folder, or has no effect. In neither case is anything left of the
temporary file.
-/
theorem write_run (s : Storage) (data : ByteArray) (name : String) (w : World ω) :
    (∃ path file, s.locate w.disk name = .ok (.entry path file) ∧
        (w.disk.folder? path).isSome = true ∧
        s.write data name w = (.ok (), { w.called with disk := w.disk.setFile path file data })) ∨
      ((s.write data name w).1.IsStop ∧ (s.write data name w).2 = w.called) := by
  unfold write
  rcases callInSteps_cases s .write _ w with h | ⟨late, hlate, h⟩ | ⟨hstop, h⟩
  · -- no fault strikes the call, so the disk decides
    rw [h]
    rcases stage_cases s data name w.called with ⟨temporary, d', hstage, hstaged⟩ | ⟨e, hstage⟩
    · rw [Act.bind_of_ok hstage, Act.bind_of_ok (Act.cleaning_of_ok (Act.ofOutcome_apply _ _)),
        hstaged.commit_apply]
      rcases onDisk_orFail_cases (s.renamingTask name) (fun d => d.write (s.locate d' name) data)
        w.called with ⟨d'', hd'', heq⟩ | ⟨hstop, heq⟩
      · obtain ⟨path, file, hl, hf, rfl⟩ := Disk.write_eq_ok hd''
        exact Or.inl
          ⟨path, file, Disk.locateIn_of_sameFolders hstaged.sameFolders.symm hl, hf, heq⟩
      · exact Or.inr ⟨hstop, heq⟩
    · rw [Act.bind_apply, hstage]
      exact Or.inr ⟨Outcome.isStop_fail e, rfl⟩
  · -- a fault that strikes between the two steps takes the place of the second
    rw [h]
    right
    rcases stage_cases s data name w.called with ⟨temporary, d', hstage, hstaged⟩ | ⟨e, hstage⟩
    · rw [Act.bind_of_ok hstage]
      exact Act.bind_of_eq_stop (fun _ => s.commit temporary name) (hstaged.struck_apply hlate) hlate
    · rw [Act.bind_apply, hstage]
      exact ⟨Outcome.isStop_fail e, rfl⟩
  · exact Or.inr ⟨hstop, h⟩

/-- Replacing a file is done as a whole or has no effect. -/
theorem write_cases {s : Storage} {name : String} (hn : IsEntryName name) (data : ByteArray)
    (w : World ω) :
    (∃ w', s.write data name w = (.ok (), w') ∧ w.SameButDisk w' ∧
      s.Puts w.disk w'.disk name data) ∨
      ((s.write data name w).1.IsStop ∧ w.Alike (s.write data name w).2) := by
  rcases write_run s data name w with ⟨path, file, hl, hf, heq⟩ | ⟨hstop, heq⟩
  · exact Or.inl ⟨_, heq, w.alike_called.toSameButDisk.trans (w.called.sameButDisk_disk _),
      puts_setFile hn hl hf⟩
  · exact Or.inr ⟨hstop, heq ▸ w.alike_called⟩

/-- Copying a file puts what the source holds into the target's folder, or has no effect. -/
theorem copy_run {s : Storage} {source target : String} {w : World ω}
    (hne : ∀ path file, s.locate w.disk source = .ok (.entry path file) →
      s.locate w.disk target ≠ .ok (.entry path file)) :
    (∃ data path file, s.content? w.disk source = some data ∧
        s.locate w.disk target = .ok (.entry path file) ∧
        (w.disk.folder? path).isSome = true ∧
        s.copy source target w
          = (.ok (), { w.called with disk := w.disk.setFile path file data })) ∨
      ((s.copy source target w).1.IsStop ∧ (s.copy source target w).2 = w.called) := by
  unfold copy
  rcases call_cases s .copy _ w with h | ⟨-, hstop⟩
  · rw [h]
    rcases onDisk_orFail_cases ("Failed to copy " ++ s.pathOf source ++ " to " ++ s.pathOf target)
      (fun d => d.copy (s.locate d source) (s.locate d target)) w.called with
      ⟨d', hd', heq⟩ | ⟨hstop, heq⟩
    · obtain ⟨data, path, file, hdata, hl, hf, rfl⟩ := copy_eq_ok hne hd'
      exact Or.inl ⟨data, path, file, hdata, hl, hf, heq⟩
    · exact Or.inr ⟨hstop, heq⟩
  · exact Or.inr hstop

/-- Copying a file is done as a whole or has no effect. -/
theorem copy_cases {s : Storage} {source target : String} (hs : IsEntryName source)
    (ht : IsEntryName target) (hne : source ≠ target) (w : World ω) :
    (∃ w' data, s.copy source target w = (.ok (), w') ∧ w.SameButDisk w' ∧
        s.content? w.disk source = some data ∧ s.Puts w.disk w'.disk target data) ∨
      ((s.copy source target w).1.IsStop ∧ w.Alike (s.copy source target w).2) := by
  have hplace : ∀ path file, s.locate w.disk source = .ok (.entry path file) →
      s.locate w.disk target ≠ .ok (.entry path file) := by
    intro path file hsource htarget
    exact hne ((locate_entry hs hsource).symm.trans (locate_entry ht htarget))
  rcases copy_run hplace with ⟨data, path, file, hdata, hl, hf, heq⟩ | ⟨hstop, heq⟩
  · exact Or.inl ⟨_, data, heq, w.alike_called.toSameButDisk.trans (w.called.sameButDisk_disk _),
      hdata, puts_setFile ht hl hf⟩
  · exact Or.inr ⟨hstop, heq ▸ w.alike_called⟩

/-- Deleting a file touches no other entry. -/
theorem delete_sameEntries (s : Storage) {name : String} (hn : IsEntryName name) (w : World ω) :
    s.SameEntries (· ≠ name) w.disk (s.delete name w).2.disk ∧
      w.SameButDisk (s.delete name w).2 := by
  unfold delete
  rcases call_cases s .delete _ w with h | ⟨-, -, h⟩
  · rw [h]
    rcases onDisk_orFail_cases ("Failed to delete " ++ s.pathOf name)
      (fun d => d.delete (s.locate d name)) w.called with ⟨d', hd', heq⟩ | ⟨-, heq⟩
    · rw [heq]
      refine ⟨?_, w.alike_called.toSameButDisk.trans (w.called.sameButDisk_disk _)⟩
      have hkept : s.SameEntries (· ≠ name) w.disk w.disk := .refl _ _ _
      unfold Disk.delete at hd'
      split at hd'
      · cases hd'
        exact hkept
      · split at hd'
        · cases hd'
        · cases hd'
          exact hkept
      · next hl =>
        cases hd'
        exact sameEntries_dropFile hn hl
    · rw [heq]
      exact ⟨.refl _ _ _, w.alike_called.toSameButDisk⟩
  · rw [h]
    exact ⟨.refl _ _ _, w.alike_called.toSameButDisk⟩

/-- Listing changes nothing. -/
theorem list_alike (s : Storage) (w : World ω) : w.Alike (s.list w).2 := by
  unfold list
  rcases call_cases s .list _ w with h | ⟨-, -, h⟩ <;>
    · rw [h]
      exact w.alike_called

/-- Reading a file changes nothing, and answers with what is held. -/
theorem load_cases (s : Storage) (name : String) (w : World ω) :
    w.Alike (s.load name w).2 ∧
      ((∃ data, (s.load name w).1 = .ok data ∧ s.content? w.disk name = some data) ∨
        (s.load name w).1.IsStop) := by
  unfold load
  rcases call_cases s .load _ w with h | ⟨-, hstop, h⟩
  · rw [h, Act.get_bind]
    refine ⟨w.alike_called, ?_⟩
    cases hr : w.called.disk.read (s.locate w.called.disk name) with
    | ok data => exact Or.inl ⟨data, rfl, read_eq_ok_iff.1 hr⟩
    | error e => exact Or.inr (Outcome.isStop_fail _)
  · rw [h]
    exact ⟨w.alike_called, Or.inr hstop⟩

end Storage

end Keepsake
