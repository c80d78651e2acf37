import Keepsake.Proofs.Pass
import Keepsake.Proofs.Staging
/-!
# What a pass can tell of the world

A pass looks at the clock, at the variables of its accessors, and at what the folder has under the
names of its save-file, and it meets what strikes its calls. Worlds that agree in this
(`World.Agree`) it cannot tell apart: it has the same outcome in both, and leaves worlds that
agree again. Each part of a pass is such an operation (`Act.Respects`).
-/

namespace Keepsake

variable {ω ε δ α β γ : Type}

/-! ## Disks -/

/-- Two results that are the same failure, or answers that are related. -/
inductive SameResult (R : α → α → Prop) : Except ε α → Except ε α → Prop where
  | ok {a a' : α} (related : R a a') : SameResult R (.ok a) (.ok a')
  | error (e : ε) : SameResult R (.error e) (.error e)

namespace Storage.SameEntries

variable {s : Storage} {P : String → Prop} {d d' : Disk}

theorem write (h : s.SameEntries P d d') {name : String} (hP : P name) (hn : IsEntryName name)
    (data : ByteArray) : SameResult (s.SameEntries P) (d.write (s.locate d name) data)
      (d'.write (s.locate d' name) data) := by
  rw [h.locate_eq hP hn]
  cases hl : s.locate d name with
  | error e => exact .error e
  | ok place =>
    cases place with
    | folder dir => exact .error DiskFault.isADirectory
    | entry dir file =>
      obtain rfl := locate_entry hn hl
      simp only [Disk.write, (h.file?_eq hP hn hl).2]
      split
      · next hdir => exact .ok (h.setFile hP hn hl hdir data)
      · exact .error DiskFault.notFound

theorem copy (h : s.SameEntries P d d') {source target : String} (hPs : P source) (hPt : P target)
    (hs : IsEntryName source) (ht : IsEntryName target) :
    SameResult (s.SameEntries P) (d.copy (s.locate d source) (s.locate d target))
      (d'.copy (s.locate d' source) (s.locate d' target)) := by
  have hwrite := fun data => h.write hPt ht data
  rw [h.locate_eq hPs hs]
  simp only [h.locate_eq hPt ht] at hwrite ⊢
  cases hl : s.locate d source with
  | error e => exact .error e
  | ok place =>
    cases place with
    | folder dir => exact .error DiskFault.notAFile
    | entry dir file =>
      obtain rfl := locate_entry hs hl
      unfold Disk.copy
      simp only [(h.file?_eq hPs hs hl).1]
      cases d.file? dir file with
      | none => exact .error DiskFault.notFound
      | some data =>
        simp only []
        split <;> exact hwrite _

/-- Whether a temporary file can be made depends on the home alone. -/
theorem canStage_eq (h : s.SameEntries P d d') (name : String) :
    s.canStage d' name = s.canStage d name := by
  have hstaging : s.staging d' name = s.staging d name := by
    unfold staging
    rw [h.home]
    split
    · rfl
    · cases hdir : s.home d with
      | error e => rfl
      | ok dir =>
        show ite _ _ _ = ite _ _ _
        rw [h.there dir hdir]
  unfold canStage
  rw [hstaging]

end Storage.SameEntries

/-! ## Worlds -/

/--
The same is to come, however many calls there were: the same strikes the calls, and the wall clock
shows the same at each of them.
-/
structure World.SameOutlook (w w' : World ω) : Prop where
  faults : ∀ k c, w'.plan (w'.calls + k) c = w.plan (w.calls + k) c
  probes : ∀ k, w'.probes (w'.calls + k) = w.probes (w.calls + k)
  clock : ∀ k, w'.drift (w'.calls + k) w'.clock = w.drift (w.calls + k) w.clock

/-- Neither the faults to come nor the clock depend on the numbers of the calls. -/
structure World.Steady (w : World ω) : Prop where
  plan : ∀ n m c, w.plan n c = w.plan m c
  probes : ∀ n m, w.probes n = w.probes m
  drift : ∀ n m, w.drift n w.clock = w.drift m w.clock

theorem World.Steady.of_sameSetting {w w' : World ω} (h : w.Steady) (hset : w.SameSetting w') :
    w'.Steady := by
  refine ⟨fun n m c => ?_, fun n m => ?_, fun n m => ?_⟩
  · rw [hset.plan]
    exact h.plan n m c
  · rw [hset.probes]
    exact h.probes n m
  · rw [hset.drift, hset.clock]
    exact h.drift n m

/-- What does not depend on the number of a call is to come behind any number of calls. -/
theorem World.Steady.sameOutlook {w u v : World ω} (h : w.Steady) (hu : w.SameSetting u)
    (hv : w.SameSetting v) : u.SameOutlook v := by
  refine ⟨fun k c => ?_, fun k => ?_, fun k => ?_⟩
  · rw [hu.plan, hv.plan]
    exact h.plan _ _ c
  · rw [hu.probes, hv.probes]
    exact h.probes _ _
  · rw [hu.drift, hv.drift, hu.clock, hv.clock]
    exact h.drift _ _

theorem World.SameOutlook.trans {w₁ w₂ w₃ : World ω} (h : w₁.SameOutlook w₂)
    (h' : w₂.SameOutlook w₃) : w₁.SameOutlook w₃ where
  faults k c := (h'.faults k c).trans (h.faults k c)
  probes k := (h'.probes k).trans (h.probes k)
  clock k := (h'.clock k).trans (h.clock k)

theorem World.SameOutlook.called {w w' : World ω} (h : w.SameOutlook w') :
    w.called.SameOutlook w'.called := by
  refine ⟨fun k c => ?_, fun k => ?_, fun k => ?_⟩
  · show w'.plan (w'.calls + 1 + k) c = w.plan (w.calls + 1 + k) c
    rw [Nat.add_assoc, Nat.add_assoc]
    exact h.faults (1 + k) c
  · show w'.probes (w'.calls + 1 + k) = w.probes (w.calls + 1 + k)
    rw [Nat.add_assoc, Nat.add_assoc]
    exact h.probes (1 + k)
  · show w'.drift (w'.calls + 1 + k) w'.clock = w.drift (w.calls + 1 + k) w.clock
    rw [Nat.add_assoc, Nat.add_assoc]
    exact h.clock (1 + k)

/--
Worlds that are the same for a save-file: in what is to come, in the entries under its names, and in
a part of the variables.
-/
structure World.Agree (s : Storage) (name : String) (part : ω → γ) (w w' : World ω) : Prop where
  outlook : w.SameOutlook w'
  entries : s.SameEntries (IsLastingName name) w.disk w'.disk
  vars : part w'.vars = part w.vars

/-- An operation that cannot tell worlds apart that agree. -/
def Act.Respects (s : Storage) (name : String) (part : ω → γ) (x : Act ω ε α) : Prop :=
  ∀ w w', w.Agree s name part w' → (x w').1 = (x w).1 ∧ (x w).2.Agree s name part (x w').2

namespace Act

variable {s : Storage} {name : String} {part : ω → γ}

theorem respects_pure (a : α) : Respects s name part (Pure.pure a : Act ω ε α) := fun _ _ h =>
  ⟨rfl, h⟩

theorem respects_panic (p : Panic) : Respects s name part (fun w => (.panic p, w) : Act ω ε α) :=
  fun _ _ h => ⟨rfl, h⟩

theorem respects_ofExcept (x : Except ε α) : Respects s name part (Act.ofExcept x : Act ω ε α) :=
  fun _ _ h => ⟨rfl, h⟩

theorem respects_now : Respects s name part (Act.get World.now : Act ω ε Stamp) := fun _ _ h =>
  ⟨congrArg Outcome.ok (h.outlook.clock 0), h⟩

theorem respects_tell (source : LogSource) (level : LogLevel) (message : String)
    (fields : List (String × LogValue)) :
    Respects s name part (Act.tell source level message fields : Act ω ε Unit) := fun _ _ h =>
  ⟨rfl, ⟨h.outlook.faults, h.outlook.probes, h.outlook.clock⟩, h.entries, h.vars⟩

theorem respects_count (g : Metrics → Metrics) :
    Respects s name part (Act.count g : Act ω ε Unit) := fun _ _ h =>
  ⟨rfl, ⟨h.outlook.faults, h.outlook.probes, h.outlook.clock⟩, h.entries, h.vars⟩

/-- The second part of a sequence may count on what the first one can answer. -/
theorem Respects.bind_of_ok {x : Act ω ε α} {f : α → Act ω ε β} (hx : Respects s name part x)
    (hf : ∀ w a w', x w = (.ok a, w') → Respects s name part (f a)) :
    Respects s name part (x >>= f) := by
  intro w w' h
  obtain ⟨hsame, hagree⟩ := hx w w' h
  rw [bind_apply, bind_apply]
  cases hw : x w with
  | mk o v =>
    cases hw' : x w' with
    | mk o' v' =>
      rw [hw, hw'] at hsame hagree
      obtain rfl : o' = o := hsame
      cases o' with
      | ok a => exact hf w a v hw v v' hagree
      | fail e => exact ⟨rfl, hagree⟩
      | panic p => exact ⟨rfl, hagree⟩

theorem Respects.bind {x : Act ω ε α} {f : α → Act ω ε β} (hx : Respects s name part x)
    (hf : ∀ a, Respects s name part (f a)) : Respects s name part (x >>= f) :=
  hx.bind_of_ok fun _ a _ _ => hf a

theorem Respects.settle {x : Act ω ε α} (h : Respects s name part x) :
    Respects s name part (Act.settle x : Act ω δ (Outcome ε α)) := fun w w' hw =>
  ⟨congrArg Outcome.ok (h w w' hw).1, (h w w' hw).2⟩

theorem Respects.attempt {x : Act ω ε α} (h : Respects s name part x) :
    Respects s name part (Act.attempt x : Act ω δ (Except ε α)) := by
  intro w w' hw
  obtain ⟨hsame, hagree⟩ := h w w' hw
  unfold Act.attempt
  cases hx : x w with
  | mk o v =>
    cases hx' : x w' with
    | mk o' v' =>
      rw [hx, hx'] at hsame hagree
      obtain rfl : o' = o := hsame
      cases o' <;> exact ⟨rfl, hagree⟩

theorem respects_ofOutcome (o : Outcome ε α) : Respects s name part (Act.ofOutcome o : Act ω ε α) :=
  fun _ _ h => ⟨rfl, h⟩

/-- What an operation looks at first may be anything that worlds that agree agree in. -/
theorem respects_get_bind {g : World ω → β} {f : β → Act ω ε α}
    (h : ∀ w w', w.Agree s name part w' → ∃ x : Act ω ε α, Respects s name part x ∧
      f (g w) w = x w ∧ f (g w') w' = x w') : Respects s name part (Act.get g >>= f) := by
  intro w w' hw
  obtain ⟨x, hx, heq, heq'⟩ := h w w' hw
  rw [get_bind, get_bind, heq, heq']
  exact hx w w' hw

/-- An operation on the variables that depends on a part of them. -/
theorem respects_onVars {g : ω → Outcome ε α × ω}
    (h : ∀ v v', part v' = part v → (g v').1 = (g v).1 ∧ part (g v').2 = part (g v).2) :
    Respects s name part (Act.onVars g) := fun w w' hw =>
  have hg := h w.vars w'.vars hw.vars
  ⟨hg.1, ⟨hw.outlook.faults, hw.outlook.probes, hw.outlook.clock⟩, hw.entries, hg.2⟩

theorem respects_onDisk_orFail {f : Disk → Except DiskFault Disk} (task : String)
    (h : ∀ d d', s.SameEntries (IsLastingName name) d d' →
      SameResult (s.SameEntries (IsLastingName name)) (f d) (f d')) :
    Respects s name part (Act.onDisk fun d => Storage.orFail task (f d)) := by
  intro w w' hw
  have hf := h w.disk w'.disk hw.entries
  unfold Act.onDisk Storage.orFail
  cases hd : f w.disk with
  | ok d =>
    cases hd' : f w'.disk with
    | ok d' =>
      rw [hd, hd'] at hf
      cases hf with
      | ok related =>
        simp only [hd, hd']
        exact ⟨trivial, ⟨hw.outlook.faults, hw.outlook.probes, hw.outlook.clock⟩, related, hw.vars⟩
    | error e =>
      rw [hd, hd'] at hf
      cases hf
  | error e =>
    rw [hd] at hf
    generalize hd' : f w'.disk = r at hf
    cases hf
    simp only [hd, hd']
    exact ⟨trivial, hw⟩

end Act

theorem World.Agree.called {s : Storage} {name : String} {part : ω → γ} {w w' : World ω}
    (h : w.Agree s name part w') : w.called.Agree s name part w'.called :=
  ⟨h.outlook.called, h.entries, h.vars⟩

/-! ## Storages -/

namespace Storage

variable {s : Storage} {name : String} {part : ω → γ}

theorem respects_callInSteps {c : Call} {x : Outcome Failure Unit → Act ω Failure α}
    (hx : ∀ late, Act.Respects s name part (x late)) :
    Act.Respects s name part (s.callInSteps c x) := by
  intro w w' hw
  unfold callInSteps
  have hfault : w'.plan w'.calls c = w.plan w.calls c := hw.outlook.faults 0 c
  rw [hfault]
  cases if s.exposed then w.plan w.calls c else none with
  | none => exact hx _ _ _ hw.called
  | some fault =>
    cases fault with
    | fail f => exact ⟨rfl, hw.called⟩
    | panic p => exact ⟨rfl, hw.called⟩
    | failStaged f => exact hx _ _ _ hw.called
    | panicStaged p => exact hx _ _ _ hw.called

theorem respects_call {c : Call} {x : Act ω Failure α} (hx : Act.Respects s name part x) :
    Act.Respects s name part (s.call c x) :=
  respects_callInSteps fun late => (Act.respects_ofOutcome late).bind fun _ => hx

theorem respects_probe {file : String} (hfile : IsLastingName name file) (hn : '/' ∉ name.toList) :
    Act.Respects s name part (s.probe file : Act ω ε Bool) := by
  intro w w' hw
  have hpanic : w'.probes w'.calls = w.probes w.calls := hw.outlook.probes 0
  have hthere : s.contains w'.disk file = s.contains w.disk file := by
    rw [contains_eq, contains_eq, hw.entries.content?_eq hfile (hfile.isEntryName hn)]
  unfold probe
  rw [hpanic, hthere]
  cases if s.exposed then w.probes w.calls else none with
  | none => exact ⟨rfl, hw.called⟩
  | some p => exact ⟨rfl, hw.called⟩

theorem respects_copy {source target : String} (hs : IsLastingName name source)
    (ht : IsLastingName name target) (hn : '/' ∉ name.toList) :
    Act.Respects s name part (s.copy source target : Act ω Failure Unit) :=
  respects_call (Act.respects_onDisk_orFail _ fun _ _ h =>
    h.copy hs ht (hs.isEntryName hn) (ht.isEntryName hn))

theorem respects_write (hn : '/' ∉ name.toList) (data : ByteArray) :
    Act.Respects s name part (s.write data (canonicalName name) : Act ω Failure Unit) := by
  have hwrite := isEntryName_canonicalName hn
  rw [write_eq s hwrite]
  refine respects_callInSteps fun late => Act.respects_get_bind fun w w' hw => ⟨_,
    (Act.respects_ofExcept (s.canStage w.disk (canonicalName name))).bind fun _ =>
      (Act.respects_ofOutcome late).bind fun _ =>
        Act.respects_onDisk_orFail _ fun _ _ h => h.write .canonical hwrite data,
    rfl, ?_⟩
  rw [hw.entries.canStage_eq]

end Storage

/-! ## Passes -/

theorem respects_findFreeName {s : Storage} {name : String} {part : ω → γ}
    (hn : '/' ∉ name.toList) (stamp : Stamp) (counter tries : Nat) :
    Act.Respects s name part
      (findFreeName s (timestampedName name stamp) counter tries : Act ω ε String) := by
  induction tries generalizing counter with
  | zero => exact Act.respects_pure _
  | succ tries ih =>
    refine (Storage.respects_probe (.backup (.timestamped stamp counter)) hn).bind fun there => ?_
    split
    · exact ih (counter + 1)
    · exact Act.respects_pure _

/-- How many files there are elsewhere makes no difference to the name of a backup. -/
theorem respects_nextBackup {s : Storage} {name : String} {part : ω → γ} (hn : '/' ∉ name.toList)
    (mode : BackupMode) (stamp : Stamp) :
    Act.Respects s name part (nextBackup s name mode stamp : Act ω ε _) := by
  cases mode with
  | off => exact Act.respects_pure none
  | rotating => exact Act.respects_pure _
  | timestamped =>
    have hentry := isEntryName_timestamped hn stamp
    refine Act.respects_get_bind fun w w' hw => ⟨_,
      (respects_findFreeName hn stamp 0 (w.disk.fileCount + 1)).bind fun target =>
        Act.respects_pure (some target), rfl, ?_⟩
    have hsame : ∀ k, s.contains w'.disk (withCounter (timestampedName name stamp) k)
        = s.contains w.disk (withCounter (timestampedName name stamp) k) := by
      intro k
      rw [Storage.contains_eq, Storage.contains_eq,
        hw.entries.content?_eq (.backup (.timestamped stamp k)) (hentry k)]
    have htries : (findFreeName s (timestampedName name stamp) 0 (w'.disk.fileCount + 1)
          : Act ω ε String) w'
        = findFreeName s (timestampedName name stamp) 0 (w.disk.fileCount + 1) w' := by
      refine findFreeName_apply_eq ?_ ?_
      · simpa using exists_not_contains s w'.disk hentry
      · simpa [hsame] using exists_not_contains s w.disk hentry
    simp only [Act.bind_apply, htries]

theorem respects_takeBackup {s : Storage} {name : String} {part : ω → γ} (hn : '/' ∉ name.toList)
    (mode : BackupMode) (stamp : Stamp) :
    Act.Respects s name part (takeBackup s name mode stamp : Act ω Failure _) := by
  unfold takeBackup
  split
  · exact Act.respects_pure none
  · refine (Storage.respects_probe .canonical hn).bind fun there => ?_
    split
    · refine (respects_nextBackup hn mode stamp).bind_of_ok fun w target w' hnext => ?_
      cases target with
      | none => exact Act.respects_pure none
      | some target =>
        have family := isBackupName_of_backupTarget (nextBackup_eq_ok hnext)
        exact (Storage.respects_copy .canonical (.backup family) hn).bind fun _ =>
          Act.respects_pure (some target)
    · exact Act.respects_pure none

/-- An accessor whose readings depend on a part of the variables. -/
def Accessor.DependsOn (part : ω → γ) (a : Accessor ω) : Prop :=
  ∀ vars vars', part vars' = part vars →
    (a.get vars').1 = (a.get vars).1 ∧ part (a.get vars').2 = part (a.get vars).2

namespace SaveFile

variable {s : Storage} {part : ω → γ} {f : SaveFile ω} {name : String}

theorem respects_readEntries (file : String) {entries : List (String × Accessor ω)}
    (h : ∀ e ∈ entries, e.2.DependsOn part) :
    Act.Respects s name part (readEntries file entries : Act ω ε _) := by
  induction entries with
  | nil => exact Act.respects_pure _
  | cons e rest ih =>
    obtain ⟨key, a⟩ := e
    rw [List.forall_mem_cons] at h
    refine (Act.respects_onVars h.1).settle.bind fun o => ?_
    cases o with
    | ok v => exact (ih h.2).bind fun _ => Act.respects_pure _
    | fail e => exact (Act.respects_tell _ _ _ _).bind fun _ => ih h.2
    | panic p => exact Act.respects_panic p

theorem respects_readSnapshot (h : ∀ e ∈ f.accessors.entries, e.2.DependsOn part) :
    Act.Respects s name part (f.readSnapshot : Act ω ε Snapshot) :=
  (respects_readEntries _ h).bind fun _ => Act.respects_pure _

theorem respects_backUpForSave (hn : '/' ∉ f.name.toList) :
    Act.Respects s f.name part (f.backUpForSave s : Act ω ε Unit) := by
  refine Act.respects_now.bind fun now =>
    (respects_takeBackup hn f.settings.backupMode now).attempt.bind fun r => ?_
  cases r with
  | ok taken =>
    cases taken with
    | none => exact Act.respects_pure _
    | some backup => exact Act.respects_tell _ _ _ _
  | error e => exact Act.respects_tell _ _ _ _

theorem respects_save (hn : '/' ∉ f.name.toList) (format : Format) (snapshot : Snapshot)
    (now : Nat) : Act.Respects s f.name part (f.save s format snapshot now) :=
  (Act.respects_ofExcept _).bind fun data => (respects_backUpForSave hn).bind fun _ =>
    (Storage.respects_write hn data).bind fun _ => (Act.respects_count _).bind fun _ =>
      (Act.respects_tell _ _ _ _).bind fun _ => Act.respects_pure _

theorem respects_countPass (result : PassResult) :
    Act.Respects s name part (countPass result : Act ω ε Unit) := by
  cases result <;> exact Act.respects_count _

/-- Worlds that agree for a save-file give its pass the same result, and agree behind it. -/
theorem respects_pass (hn : '/' ∉ f.name.toList)
    (hget : ∀ e ∈ f.accessors.entries, e.2.DependsOn part) (format : Format) (now : Nat)
    (onlyChanged : Bool) :
    Act.Respects s f.name part (f.pass s format now onlyChanged : Act ω ε _) := by
  have hattempt : Act.Respects s f.name part (f.saveIfNeeded s format now onlyChanged) := by
    refine (respects_readSnapshot hget).bind fun snapshot => ?_
    split
    · exact Act.respects_pure _
    · exact (respects_save hn format snapshot now).bind fun _ => Act.respects_pure _
  have counted : ∀ r : PassResult × SaveFile ω,
      Act.Respects s f.name part (do countPass r.1; Pure.pure r : Act ω ε _) := fun r =>
    (respects_countPass r.1).bind fun _ => Act.respects_pure r
  refine hattempt.settle.bind fun outcome => ?_
  cases outcome with
  | ok answer =>
    cases answer with
    | some f' => exact (Act.respects_pure (PassResult.saved, f')).bind counted
    | none => exact (Act.respects_pure (PassResult.unchanged, f)).bind counted
  | fail e => exact (Act.respects_pure (PassResult.failed e, f)).bind counted
  | panic p =>
    exact (Act.respects_tell _ _ _ _).bind fun _ =>
      (Act.respects_pure
        (PassResult.failed (.worker ("save pass panicked: " ++ p.message)), f)).bind counted

end SaveFile

end Keepsake
