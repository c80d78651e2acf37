import Keepsake.Engine
import Keepsake.Proofs.Pass
/-!
# What loads leave alone

A load writes through accessors and puts at most one file, a backup of the save-file that it is
for. No save file is another behind it, so what was saved stays saved however often it is loaded
(`SameSaves`).
-/

namespace Keepsake

variable {ω ε : Type}

/-! ## Disks with the same save files -/

/-- Every save file is held as it was. -/
def Storage.SameSaves (s : Storage) (d d' : Disk) : Prop :=
  ∀ name, '/' ∉ name.toList → s.content? d' (canonicalName name) = s.content? d (canonicalName name)

theorem Storage.SameSaves.refl (s : Storage) (d : Disk) : s.SameSaves d d := fun _ _ => rfl

theorem Storage.SameSaves.trans {s : Storage} {d₁ d₂ d₃ : Disk} (h : s.SameSaves d₁ d₂)
    (h' : s.SameSaves d₂ d₃) : s.SameSaves d₁ d₃ :=
  fun name hn => (h' name hn).trans (h name hn)

theorem BackupEffect.sameSaves {s : Storage} {name : String} {d d' : Disk}
    (h : BackupEffect s name d d') : s.SameSaves d d' := fun _ hn => h.content?_canonicalName hn

/-- The save files are kept, and what no operation sets. -/
def Act.Frame.saves (s : Storage) : Act.Frame ω where
  keeps w w' := s.SameSaves w.disk w'.disk ∧ w.SameSetting w'
  alike h := ⟨h.disk ▸ .refl s _, h.toSameSetting⟩
  trans h h' := ⟨h.1.trans h'.1, h.2.trans h'.2⟩

theorem Act.Within.saves {α : Type} {x : Act ω ε α} (h : Act.Within .butVars x) (s : Storage) :
    Act.Within (.saves s) x :=
  h.mono fun _ _ h => ⟨h.disk ▸ .refl s _, h.toSameSetting⟩

theorem within_takeBackup {s : Storage} {name : String} (hn : '/' ∉ name.toList) (mode : BackupMode)
    (stamp : Stamp) :
    Act.Within (.saves s) (takeBackup s name mode stamp : Act ω Failure _) := fun w =>
  have h := takeBackup_effect (s := s) hn mode stamp w
  ⟨h.1.sameSaves, h.2.toSameSetting⟩

namespace SaveFile

/-! ## One load -/

theorem within_applyEntries {F : Act.Frame ω} {f : SaveFile ω}
    (h : ∀ e ∈ f.accessors.entries, ∀ v, Act.Within F (Act.onVars (e.2.set v)))
    (backup : Option String) (entries : List (String × Value)) :
    Act.Within F (f.applyEntries backup entries : Act ω ε LoadReport) := by
  induction entries with
  | nil => exact Act.within_pure _
  | cons e rest ih =>
    obtain ⟨key, v⟩ := e
    unfold applyEntries
    cases hget : f.accessors.get? key with
    | none => exact (Act.within_tell _ _ _ _).bind fun _ => ih.bind fun _ => Act.within_pure _
    | some a =>
      refine (h (key, a) ((NameMap.mem_entries_iff _ key a).2 hget) v).settle.bind fun o => ?_
      cases o with
      | ok u => exact ih.bind fun _ => Act.within_pure _
      | fail e =>
        exact (Act.within_tell _ _ _ _).bind fun _ => (Act.within_count _).bind fun _ =>
          ih.bind fun _ => Act.within_pure _
      | panic p => exact Act.within_panic p

/-- Writing through accessors touches the variables and nothing that a storage holds. -/
theorem applyEntries_sameButVars (f : SaveFile ω) (backup : Option String)
    (entries : List (String × Value)) (w : World ω) :
    w.SameButVars ((f.applyEntries backup entries : Act ω ε LoadReport) w).2 :=
  within_applyEntries (F := .butVars) (fun e _ v => Act.within_onVars (e.2.set v)) backup entries w

theorem within_backUpForLoad {F : Act.Frame ω} {f : SaveFile ω} {s : Storage}
    (h : ∀ stamp, Act.Within F (takeBackup s f.name f.settings.backupMode stamp)) :
    Act.Within F (f.backUpForLoad s : Act ω ε _) := by
  refine (Act.within_get _).bind fun now => (h now).attempt.bind fun r => ?_
  cases r with
  | ok taken => exact Act.within_pure _
  | error e => exact (Act.within_tell _ _ _ _).bind fun _ => Act.within_pure _

/-- A load stays where its accessors and the backup that it takes do. -/
theorem within_load {F : Act.Frame ω} {f : SaveFile ω} {s : Storage}
    (hset : ∀ e ∈ f.accessors.entries, ∀ v, Act.Within F (Act.onVars (e.2.set v)))
    (hbackup : ∀ stamp, Act.Within F (takeBackup s f.name f.settings.backupMode stamp))
    (format : Format) : Act.Within F (f.load s format) := by
  refine (Storage.within_probe s _).bind fun there => ?_
  split
  · refine (within_backUpForLoad hbackup).bind fun backup => Act.Within.bind ?_ fun data => ?_
    · intro w
      exact F.alike (Storage.load_cases s (canonicalName f.name) w).1
    · refine (Act.within_ofExcept _).bind fun snapshot => ?_
      refine (within_applyEntries hset backup snapshot.entries).bind fun r => ?_
      exact (Act.within_tell _ _ _ _).bind fun _ => Act.within_pure _
  · exact (Act.within_tell _ _ _ _).bind fun _ => Act.within_pure _

/-- Backing up before a load does not fail; only a panic stops it. -/
theorem backUpForLoad_cases (f : SaveFile ω) (s : Storage) (w : World ω) :
    (∃ taken w', (f.backUpForLoad s : Act ω ε _) w = (.ok taken, w') ∧
        (f.backUp s w).2.Alike w' ∧ ∀ p, (f.backUp s w).1 ≠ .panic p) ∨
      ∃ p, (f.backUp s w).1 = .panic p ∧
        (f.backUpForLoad s : Act ω ε _) w = (.panic p, (f.backUp s w).2) := by
  unfold backUpForLoad backUp
  rw [Act.get_bind]
  cases hb : (takeBackup s f.name f.settings.backupMode w.now : Act ω Failure _) w with
  | mk o w₁ =>
    cases o with
    | ok taken =>
      rw [Act.bind_of_ok (Act.attempt_of_ok hb)]
      exact Or.inl ⟨taken, w₁, rfl, World.Alike.refl w₁, nofun⟩
    | fail e =>
      rw [Act.bind_of_ok (Act.attempt_of_fail hb)]
      obtain ⟨w', h', ha⟩ := Act.tell_apply (ε := ε) .loader .warn "backup before load failed"
        [("file", .text f.name), ("error", .text e.message)] w₁
      simp only []
      rw [Act.bind_of_ok h']
      exact Or.inl ⟨none, w', rfl, ha, nofun⟩
    | panic p =>
      refine Or.inr ⟨p, rfl, ?_⟩
      rw [Act.bind_apply, Act.attempt_of_panic hb]

/-- What a load does with a save file before it writes: the backup, and what the file says. -/
def fetch (f : SaveFile ω) (s : Storage) (format : Format) :
    Act ω Failure (Option String × Snapshot) := do
  let backup ← f.backUpForLoad s
  let data ← s.load (canonicalName f.name)
  let snapshot ← Act.ofExcept (format.decode data)
  pure (backup, snapshot)

/-- What a load does then. -/
def writeOut (f : SaveFile ω) (backup : Option String) (snapshot : Snapshot) :
    Act ω Failure LoadOutcome := do
  let r ← f.applyEntries backup snapshot.entries
  Act.tell .loader .info "loaded save file"
    [("file", .text f.name), ("applied", .number r.applied.length),
     ("unknown", .number r.unknownKeys.length), ("failed", .number r.failed.length)]
  pure (.loaded r)

/-- A load by what its probe comes to. -/
inductive LoadProbed (f : SaveFile ω) (s : Storage) (format : Format) (w : World ω) : Prop where
  | there (found : s.contains w.disk (canonicalName f.name) = true)
    (answered : (s.probe (canonicalName f.name) : Act ω Failure Bool) w = (.ok true, w.called))
    (run : f.load s format w = (f.fetch s format >>= fun x => f.writeOut x.1 x.2) w.called)
  | absent {w' : World ω} (missing : s.contains w.disk (canonicalName f.name) = false)
    (answered : (s.probe (canonicalName f.name) : Act ω Failure Bool) w = (.ok false, w.called))
    (run : f.load s format w = (.ok .nothingToLoad, w'))
    (told : w' = { w.called with
      log := ⟨.loader, .info, "no save file, nothing to load",
        [("file", .text f.name), ("path", .text (canonicalName f.name))]⟩ :: w.log })
  | struck {p : Panic}
    (panicked : (s.probe (canonicalName f.name) : Act ω Failure Bool) w = (.panic p, w.called))
    (run : f.load s format w = (.panic p, w.called))

theorem load_eq (f : SaveFile ω) (s : Storage) (format : Format) :
    f.load s format = s.probe (canonicalName f.name) >>= fun there =>
      if there = true then f.fetch s format >>= fun x => f.writeOut x.1 x.2
      else (do
        Act.tell .loader .info "no save file, nothing to load"
          [("file", .text f.name), ("path", .text (canonicalName f.name))]
        pure .nothingToLoad) := by
  unfold load fetch writeOut
  simp only [Act.bind_assoc, Act.pure_bind]

theorem load_probed (f : SaveFile ω) (s : Storage) (format : Format) (w : World ω) :
    f.LoadProbed s format w := by
  have hload := f.load_eq s format
  rcases s.probe_cases (ε := Failure) (canonicalName f.name) w with hp | ⟨-, p, hp⟩
  · cases hc : s.contains w.disk (canonicalName f.name) with
    | true =>
      rw [hc] at hp
      exact .there hc hp (by rw [hload, Act.bind_of_ok hp, if_pos rfl])
    | false =>
      rw [hc] at hp
      refine .absent hc hp ?_ rfl
      rw [hload, Act.bind_of_ok hp, if_neg Bool.false_ne_true]
      rfl
  · exact .struck hp (by rw [hload, Act.bind_apply, hp])

/-- Of the disk a load changes what backing up the save file changes, if there is one. -/
theorem load_disk_of_found {f : SaveFile ω} {s : Storage} {w w₁ : World ω}
    (h : (s.probe (canonicalName f.name) : Act ω Failure Bool) w = (.ok true, w₁))
    (format : Format) : (f.load s format w).2.disk = (f.backUp s w₁).2.disk := by
  cases f.load_probed s format w with
  | absent _ answered =>
    rw [h] at answered
    cases answered
  | struck panicked =>
    rw [h] at panicked
    cases panicked
  | there _ answered run =>
    rw [h] at answered
    cases answered
    rw [run]
    -- behind the backup only variables are changed
    have hrest : ∀ backup, Act.Within .butVars ((do
        let data ← s.load (canonicalName f.name)
        let snapshot ← Act.ofExcept (format.decode data)
        pure (backup, snapshot)) >>= fun x => f.writeOut x.1 x.2) := by
      intro backup
      refine Act.Within.bind ?_ fun x => ?_
      · exact Act.Within.bind (fun w => (Storage.load_cases s _ w).1.sameButVars) fun data =>
          (Act.within_ofExcept _).bind fun snapshot => Act.within_pure _
      · exact Act.Within.bind (f.applyEntries_sameButVars x.1 x.2.entries) fun r =>
          (Act.within_tell _ _ _ _).bind fun _ => Act.within_pure _
    rw [fetch, Act.bind_assoc]
    rcases backUpForLoad_cases (ε := Failure) f s w.called with
      ⟨taken, w₁, hb, ha, -⟩ | ⟨p, -, hb⟩
    · rw [Act.bind_of_ok hb, (hrest taken w₁).disk, ha.disk]
    · rw [Act.bind_apply, hb]

theorem load_disk (f : SaveFile ω) (s : Storage) (format : Format) (w : World ω) :
    (f.load s format w).2.disk = w.disk ∨
      ∃ w₁, (s.probe (canonicalName f.name) : Act ω Failure Bool) w = (.ok true, w₁) ∧
        w₁.disk = w.disk ∧ (f.load s format w).2.disk = (f.backUp s w₁).2.disk := by
  cases f.load_probed s format w with
  | there _ answered => exact Or.inr ⟨w.called, answered, rfl, load_disk_of_found answered format⟩
  | absent _ _ run told =>
    rw [run, told]
    exact Or.inl rfl
  | struck _ run =>
    rw [run]
    exact Or.inl rfl

/-- However a load ends, every save file is as it was. -/
theorem within_load_saves (f : SaveFile ω) (s : Storage) (format : Format)
    (hn : '/' ∉ f.name.toList) : Act.Within (.saves s) (f.load s format) :=
  within_load (fun e _ v => (Act.within_onVars (e.2.set v)).saves s)
    (within_takeBackup hn f.settings.backupMode) format

end SaveFile

/-! ## Loads of an engine -/

namespace Engine

/-- Behind an attempt at one load come the other loads. -/
theorem loadFiles_cons_of_attempt {e : Engine ω} {g : SaveFile ω} (hon : g.settings.enabled = true)
    {outcome : Except Failure LoadOutcome} {w w₁ : World ω}
    (h : (Act.attempt (g.load e.storage e.format) : Act ω ε _) w = (.ok outcome, w₁)) :
    ∃ w₂, w₁.Alike w₂ ∧ ∀ name rest, (e.loadFiles ((name, g) :: rest) : Act ω ε _) w =
      (do
        let outcomes ← e.loadFiles rest
        pure ((g.name, outcome) :: outcomes)) w₂ := by
  cases outcome with
  | ok o =>
    refine ⟨w₁, World.Alike.refl w₁, ?_⟩
    intro name rest
    rw [loadFiles, if_pos hon, Act.bind_of_ok h]
  | error err =>
    obtain ⟨w₂, htell, ha⟩ := Act.tell_apply (ε := ε) .engine .error "load abandoned"
      [("file", .text g.name), ("error", .text err.message)] w₁
    refine ⟨w₂, ha, ?_⟩
    intro name rest
    rw [loadFiles, if_pos hon, Act.bind_of_ok h]
    simp only []
    rw [Act.bind_of_ok htell]

/-- Loads stay where each of them does. -/
theorem within_loadFiles {F : Act.Frame ω} (e : Engine ω) {l : List (String × SaveFile ω)}
    (h : ∀ x ∈ l, Act.Within F (x.2.load e.storage e.format)) :
    Act.Within F (e.loadFiles l : Act ω ε _) := by
  induction l with
  | nil => exact Act.within_pure _
  | cons x rest ih =>
    obtain ⟨name, f⟩ := x
    rw [List.forall_mem_cons] at h
    have hrest := ih h.2
    unfold loadFiles
    split
    · have hrest' := fun outcome => hrest.bind (ε := ε) fun outcomes =>
        Act.within_pure ((f.name, outcome) :: outcomes)
      refine h.1.attempt.bind fun outcome => ?_
      cases outcome with
      | ok o => exact hrest' _
      | error err => exact (Act.within_tell _ _ _ _).bind fun _ => hrest' _
    · exact hrest

theorem within_loadAll (e : Engine ω)
    (hf : ∀ x ∈ e.registry.files.entries, '/' ∉ x.2.name.toList) :
    Act.Within (.saves e.storage) (e.loadAll : Act ω ε _) := by
  unfold loadAll
  split
  · exact within_loadFiles e fun x hx =>
      SaveFile.within_load_saves x.2 e.storage e.format (hf x hx)
  · exact (Act.within_tell _ _ _ _).bind fun _ => Act.within_pure _

theorem within_load (e : Engine ω) (name : String)
    (hf : ∀ x ∈ e.registry.files.entries, '/' ∉ x.2.name.toList) :
    Act.Within (.saves e.storage) (e.load name) := by
  unfold load
  cases hget : e.registry.files.get? name with
  | none => exact Act.within_fail _
  | some f =>
    exact SaveFile.within_load_saves f _ _ (hf _ ((NameMap.mem_entries_iff _ name f).2 hget))

end Engine

end Keepsake
