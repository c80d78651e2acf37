import Keepsake.Proofs.Isolation
/-!
# What loads of all save-files do to each other

A load looks at what a pass looks at, and writes through the accessors of one save-file. So if the
variables of save-files are apart, each of them is loaded in a row as if it were loaded alone,
until one is reached whose load panics (`Engine.LoadsAll`). A panic is not kept from the rest of
the row: it leaves without the outcomes, and the save-files behind have not been loaded.
-/

namespace Keepsake

variable {ω ε δ α γ : Type}

/-! ## One load -/

/-- An accessor that is written as a part of the variables says, and changes of them that part. -/
def Accessor.WritesIn (part : ω → γ) (a : Accessor ω) : Prop :=
  ∀ v vars vars', part vars' = part vars →
    (a.set v vars').1 = (a.set v vars).1 ∧ part (a.set v vars').2 = part (a.set v vars).2

/-- An accessor that leaves a part of the variables alone when it is written. -/
def Accessor.WritesBeside (part : ω → γ) (a : Accessor ω) : Prop :=
  ∀ v vars, part (a.set v vars).2 = part vars

theorem Storage.respects_load {s : Storage} {name : String} {part : ω → γ}
    (hn : '/' ∉ name.toList) :
    Act.Respects s name part (s.load (canonicalName name) : Act ω Failure ByteArray) := by
  refine respects_call (Act.respects_get_bind fun w w' hw => ?_)
  have hentry := isEntryName_canonicalName hn
  have hread : w'.disk.read (s.locate w'.disk (canonicalName name))
      = w.disk.read (s.locate w.disk (canonicalName name)) := by
    rw [hw.entries.locate_eq .canonical hentry]
    cases hl : s.locate w.disk (canonicalName name) with
    | error e => rfl
    | ok place =>
      cases place with
      | folder dir => rfl
      | entry dir file =>
        obtain rfl := locate_entry hentry hl
        simp only [Disk.read, (hw.entries.file?_eq .canonical hentry hl).1]
  exact ⟨_, Act.respects_ofExcept _, rfl, by rw [hread]⟩

namespace SaveFile

variable {s : Storage} {part : ω → γ} {f : SaveFile ω}

theorem respects_applyEntries {name : String}
    (h : ∀ e ∈ f.accessors.entries, e.2.WritesIn part) (backup : Option String)
    (entries : List (String × Value)) :
    Act.Respects s name part (f.applyEntries backup entries : Act ω ε LoadReport) := by
  induction entries with
  | nil => exact Act.respects_pure _
  | cons e rest ih =>
    obtain ⟨key, v⟩ := e
    unfold applyEntries
    cases hget : f.accessors.get? key with
    | none => exact (Act.respects_tell _ _ _ _).bind fun _ => ih.bind fun _ => Act.respects_pure _
    | some a =>
      have hset := h (key, a) ((NameMap.mem_entries_iff _ key a).2 hget) v
      refine (Act.respects_onVars hset).settle.bind fun o => ?_
      cases o with
      | ok u => exact ih.bind fun _ => Act.respects_pure _
      | fail e =>
        exact (Act.respects_tell _ _ _ _).bind fun _ => (Act.respects_count _).bind fun _ =>
          ih.bind fun _ => Act.respects_pure _
      | panic p => exact Act.respects_panic p

theorem respects_backUpForLoad (hn : '/' ∉ f.name.toList) :
    Act.Respects s f.name part (f.backUpForLoad s : Act ω ε _) := by
  refine Act.respects_now.bind fun now =>
    (respects_takeBackup hn f.settings.backupMode now).attempt.bind fun r => ?_
  cases r with
  | ok taken => exact Act.respects_pure _
  | error e => exact (Act.respects_tell _ _ _ _).bind fun _ => Act.respects_pure _

/-- Worlds that agree for a save-file give its load the same outcome, and agree behind it. -/
theorem respects_load (hn : '/' ∉ f.name.toList)
    (hset : ∀ e ∈ f.accessors.entries, e.2.WritesIn part) (format : Format) :
    Act.Respects s f.name part (f.load s format) := by
  refine (Storage.respects_probe .canonical hn).bind fun there => ?_
  split
  · exact (respects_backUpForLoad hn).bind fun backup => (Storage.respects_load hn).bind
      fun data => (Act.respects_ofExcept _).bind fun (snapshot : Snapshot) =>
        (respects_applyEntries hset backup snapshot.entries).bind fun r =>
          (Act.respects_tell _ _ _ _).bind fun _ => Act.respects_pure _
  · exact (Act.respects_tell _ _ _ _).bind fun _ => Act.respects_pure _

/-- What the accessors of a save-file leave alone its load leaves alone. -/
theorem within_load_vars (f : SaveFile ω) (s : Storage) (format : Format)
    (hn : '/' ∉ f.name.toList) (hset : ∀ e ∈ f.accessors.entries, e.2.WritesBeside part) :
    Act.Within (.vars part) (f.load s format) :=
  within_load (fun e he v w => hset e he v w.vars) (fun stamp w =>
    congrArg part (takeBackup_effect (s := s) hn f.settings.backupMode stamp w).2.vars) format

end SaveFile

/-! ## Loads that do not panic -/

/-- No call of a storage is struck by a panic, and no probe. -/
def World.NoPanicPlanned (w : World ω) : Prop :=
  (∀ n c p, w.plan n c ≠ some (.panic p) ∧ w.plan n c ≠ some (.panicStaged p)) ∧
    ∀ n, w.probes n = none

/-- An operation that does not panic of itself. -/
def Act.IsRegular (x : Act ω ε α) : Prop :=
  ∀ w : World ω, w.NoPanicPlanned → (x w).1.IsRegular ∧ (x w).2.NoPanicPlanned

namespace Act

variable {β : Type}

theorem isRegular_pure (a : α) : IsRegular (Pure.pure a : Act ω ε α) := fun _ h => ⟨nofun, h⟩

theorem isRegular_get (g : World ω → α) : IsRegular (Act.get g : Act ω ε α) := fun _ h =>
  ⟨nofun, h⟩

theorem isRegular_ofExcept (x : Except ε α) : IsRegular (Act.ofExcept x : Act ω ε α) := fun _ h =>
  ⟨by cases x <;> exact nofun, h⟩

theorem isRegular_tell (source : LogSource) (level : LogLevel) (message : String)
    (fields : List (String × LogValue)) :
    IsRegular (Act.tell source level message fields : Act ω ε Unit) := fun _ h => ⟨nofun, h⟩

theorem isRegular_count (g : Metrics → Metrics) : IsRegular (Act.count g : Act ω ε Unit) :=
  fun _ h => ⟨nofun, h⟩

theorem isRegular_onDisk (f : Disk → Except ε Disk) :
    IsRegular (Act.onDisk f : Act ω ε Unit) := by
  intro w h
  unfold Act.onDisk
  split <;> exact ⟨nofun, h⟩

theorem IsRegular.bind {x : Act ω ε α} {f : α → Act ω ε β} (hx : IsRegular x)
    (hf : ∀ a, IsRegular (f a)) : IsRegular (x >>= f) := by
  intro w h
  have hw := hx w h
  rw [bind_apply]
  split
  · next a w' heq =>
    rw [heq] at hw
    exact hf a w' hw.2
  · next e w' heq =>
    rw [heq] at hw
    exact ⟨nofun, hw.2⟩
  · next p w' heq => exact absurd (congrArg Prod.fst heq) (hw.1 p)

theorem IsRegular.attempt {x : Act ω ε α} (hx : IsRegular x) :
    IsRegular (Act.attempt x : Act ω δ (Except ε α)) := by
  intro w h
  have hw := hx w h
  cases hx : x w with
  | mk o w' =>
    rw [hx] at hw
    cases o with
    | ok a => exact attempt_of_ok (δ := δ) hx ▸ ⟨nofun, hw.2⟩
    | fail e => exact attempt_of_fail (δ := δ) hx ▸ ⟨nofun, hw.2⟩
    | panic p => exact absurd rfl (hw.1 p)

/-- Behind what does not panic only answers and failures have to be provided for. -/
theorem isRegular_settle_bind {g : ω → Outcome ε α × ω} {f : Outcome ε α → Act ω δ β}
    (hg : ∀ vars, (g vars).1.IsRegular) (hf : ∀ o : Outcome ε α, o.IsRegular → IsRegular (f o)) :
    IsRegular (Act.settle (Act.onVars g) >>= f) := by
  intro w h
  rw [settle_bind, onVars_apply]
  exact hf _ (hg w.vars) _ h

end Act

namespace Storage

theorem isRegular_call {s : Storage} {c : Call} {x : Act ω Failure α} (hx : Act.IsRegular x) :
    Act.IsRegular (s.call c x) := by
  intro w h
  unfold call callInSteps
  cases hfault : if s.exposed then w.plan w.calls c else none with
  | none => exact hx _ h
  | some fault =>
    have hplanned : w.plan w.calls c = some fault := by
      split at hfault
      · exact hfault
      · cases hfault
    cases fault with
    | fail f => exact ⟨nofun, h⟩
    | failStaged f => exact ⟨nofun, h⟩
    | panic p => exact absurd hplanned (h.1 _ _ p).1
    | panicStaged p => exact absurd hplanned (h.1 _ _ p).2

theorem isRegular_probe (s : Storage) (name : String) :
    Act.IsRegular (s.probe name : Act ω ε Bool) := by
  intro w h
  unfold probe
  rw [h.2, ite_self]
  exact ⟨nofun, h⟩

end Storage

theorem isRegular_findFreeName (s : Storage) (base : String) (counter tries : Nat) :
    Act.IsRegular (findFreeName s base counter tries : Act ω ε String) := by
  induction tries generalizing counter with
  | zero => exact Act.isRegular_pure _
  | succ tries ih =>
    refine (s.isRegular_probe _).bind fun there => ?_
    split
    · exact ih (counter + 1)
    · exact Act.isRegular_pure _

theorem isRegular_takeBackup (s : Storage) (name : String) (mode : BackupMode) (stamp : Stamp) :
    Act.IsRegular (takeBackup s name mode stamp : Act ω Failure _) := by
  have hnext : Act.IsRegular (nextBackup s name mode stamp : Act ω Failure _) := by
    cases mode with
    | off => exact Act.isRegular_pure none
    | rotating => exact Act.isRegular_pure _
    | timestamped =>
      exact (Act.isRegular_get _).bind fun d =>
        (isRegular_findFreeName s _ 0 _).bind fun target => Act.isRegular_pure (some target)
  unfold takeBackup
  split
  · exact Act.isRegular_pure none
  · refine (s.isRegular_probe _).bind fun there => ?_
    split
    · refine hnext.bind fun target => ?_
      cases target with
      | none => exact Act.isRegular_pure none
      | some target =>
        exact (Storage.isRegular_call (Act.isRegular_onDisk _)).bind fun _ => Act.isRegular_pure _
    · exact Act.isRegular_pure none

namespace SaveFile

variable {f : SaveFile ω}

/-- None of the accessors of a save-file panics when it is written. -/
def WritesRegularly (f : SaveFile ω) : Prop :=
  ∀ e ∈ f.accessors.entries, ∀ v vars, (e.2.set v vars).1.IsRegular

theorem WritesRegularly.applyEntries (h : f.WritesRegularly) (backup : Option String)
    (entries : List (String × Value)) :
    Act.IsRegular (f.applyEntries backup entries : Act ω ε LoadReport) := by
  induction entries with
  | nil => exact Act.isRegular_pure _
  | cons e rest ih =>
    obtain ⟨key, v⟩ := e
    unfold SaveFile.applyEntries
    cases hget : f.accessors.get? key with
    | none => exact (Act.isRegular_tell _ _ _ _).bind fun _ => ih.bind fun _ => Act.isRegular_pure _
    | some a =>
      have hset := h (key, a) ((NameMap.mem_entries_iff _ key a).2 hget) v
      refine Act.isRegular_settle_bind hset fun o ho => ?_
      cases o with
      | ok u => exact ih.bind fun _ => Act.isRegular_pure _
      | fail e =>
        exact (Act.isRegular_tell _ _ _ _).bind fun _ => (Act.isRegular_count _).bind fun _ =>
          ih.bind fun _ => Act.isRegular_pure _
      | panic p => exact absurd rfl (ho p)

/-- A load panics only where one of its own accessors or the storage does. -/
theorem WritesRegularly.load (h : f.WritesRegularly) (s : Storage) (format : Format) :
    Act.IsRegular (f.load s format) := by
  have hbackup : Act.IsRegular (f.backUpForLoad s : Act ω Failure _) := by
    refine (Act.isRegular_get _).bind fun now =>
      (isRegular_takeBackup s f.name f.settings.backupMode now).attempt.bind fun r => ?_
    cases r with
    | ok taken => exact Act.isRegular_pure _
    | error e => exact (Act.isRegular_tell _ _ _ _).bind fun _ => Act.isRegular_pure _
  refine (s.isRegular_probe _).bind fun there => ?_
  split
  · refine hbackup.bind fun backup => (Storage.isRegular_call ?_).bind fun data => ?_
    · exact (Act.isRegular_get _).bind fun d => Act.isRegular_ofExcept _
    · exact (Act.isRegular_ofExcept _).bind fun snapshot =>
        (h.applyEntries backup snapshot.entries).bind fun r =>
          (Act.isRegular_tell _ _ _ _).bind fun _ => Act.isRegular_pure _
  · exact (Act.isRegular_tell _ _ _ _).bind fun _ => Act.isRegular_pure _

end SaveFile

/-! ## All loads -/

namespace Engine

/--
A part of the variables that belongs to one save-file: its accessors write what they find in this
part, and no other accessor writes there.
-/
structure Owns (e : Engine ω) (name : String) (part : ω → γ) : Prop where
  own : ∀ f, e.registry.files.get? name = some f → ∀ x ∈ f.accessors.entries, x.2.WritesIn part
  others : ∀ other g, e.registry.files.get? other = some g → other ≠ name →
    ∀ x ∈ g.accessors.entries, x.2.WritesBeside part

/-- The enabled save-files among some. -/
def enabledOf (l : List (String × SaveFile ω)) : List (SaveFile ω) :=
  (l.map Prod.snd).filter fun f => f.settings.enabled

/-- The enabled save-files of an engine, in the order of their names. -/
def enabledFiles (e : Engine ω) : List (SaveFile ω) := enabledOf e.registry.files.entries

/--
What loading save-files one after the other comes to, each of them told by what comes of it when
it is the only one that is loaded.
-/
inductive LoadsAll (e : Engine ω) (part : String → ω → γ) (w : World ω) :
    List (SaveFile ω) → Outcome ε (List (String × Except Failure LoadOutcome)) → World ω → Prop where
  /-- each save-file has its outcome and what it has when it is loaded alone -/
  | complete {files : List (SaveFile ω)}
    {outcomes : List (String × Except Failure LoadOutcome)} {w' : World ω}
    (each : outcomes.map (fun o => (o.1, Outcome.ofExcept o.2))
      = files.map fun f => (f.name, (e.load f.name w).1))
    (loaded : ∀ f ∈ files, (e.load f.name w).2.Agree e.storage f.name (part f.name) w') :
    LoadsAll e part w files (.ok outcomes) w'
  /-- a panic leaves the row, and the save-files behind it have what they had -/
  | aborted {before behind : List (SaveFile ω)} {f : SaveFile ω} {p : Panic} {w' : World ω}
    (regular : ∀ g ∈ before, ∀ p, (e.load g.name w).1 ≠ .panic p)
    (panicked : (e.load f.name w).1 = .panic p)
    (loaded : ∀ g ∈ before ++ [f], (e.load g.name w).2.Agree e.storage g.name (part g.name) w')
    (unloaded : ∀ g ∈ behind, w.Agree e.storage g.name (part g.name) w') :
    LoadsAll e part w (before ++ f :: behind) (.panic p) w'

section LoadsAll

variable {e : Engine ω} {part : String → ω → γ} {w : World ω}

/-- What a load leaves alone of another save-file. -/
theorem within_load_besides (h : e.WellNamed) {name : String} {part : ω → γ}
    (howns : e.Owns name part) {other : String} {g : SaveFile ω}
    (hg : e.registry.files.get? other = some g) (hne : other ≠ name) :
    Act.Within (besides e.storage name part) (g.load e.storage e.format) := by
  have hslash := h.no_slash hg
  obtain rfl : g.name = other := (h other g hg).1
  exact (g.within_load_entries e.storage e.format hslash hne.symm).both
    (g.within_load_vars e.storage e.format hslash (howns.others g.name g hg hne))

/-- Where calls are not told apart by their numbers, what is kept still agrees. -/
theorem agree_of_besides {s : Storage} {name : String} {part : ω → γ} {u v v' : World ω}
    (hsteady : v.Steady) (h : u.Agree s name part v) (hk : (besides s name part).keeps v v') :
    u.Agree s name part v' where
  outlook := h.outlook.trans (hsteady.sameOutlook (.refl v) hk.1.2)
  entries := h.entries.trans hk.1.1
  vars := hk.2.trans h.vars

/-- The load of one save-file has no part in those that are loaded behind it. -/
theorem agree_behind (h : e.WellNamed) {f : SaveFile ω} {rest : List (String × SaveFile ω)}
    (hf : e.registry.files.get? f.name = some f)
    (howns : ∀ g ∈ enabledOf rest, e.Owns g.name (part g.name))
    (hrest : ∀ x ∈ rest, x ∈ e.registry.files.entries) (hne : ∀ x ∈ rest, f.name ≠ x.1)
    {v : World ω} (hsteady : v.Steady)
    (hv : ∀ g ∈ enabledOf rest, w.Agree e.storage g.name (part g.name) v) :
    ∀ g ∈ enabledOf rest,
      w.Agree e.storage g.name (part g.name) (f.load e.storage e.format v).2 := by
  intro g hg
  obtain ⟨x, hx, rfl⟩ := List.mem_map.1 (List.mem_filter.1 hg).1
  have hname : x.2.name = x.1 := (h.of_mem (hrest x hx)).1
  exact agree_of_besides hsteady (hv x.2 hg)
    (within_load_besides h (howns x.2 hg) hf (hname ▸ hne x hx) v)

/-- The loads behind have no part in the save-file that was loaded. -/
theorem within_loadFiles_besides (h : e.WellNamed) {name : String} {part : ω → γ}
    (howns : e.Owns name part) {rest : List (String × SaveFile ω)}
    (hrest : ∀ x ∈ rest, x ∈ e.registry.files.entries) (hne : ∀ x ∈ rest, name ≠ x.1) :
    Act.Within (besides e.storage name part) (e.loadFiles rest : Act ω ε _) :=
  within_loadFiles e fun x hx =>
    within_load_besides h howns (NameMap.get?_of_mem (hrest x hx)) (hne x hx).symm

/-- A row whose first load had an outcome goes on behind it. -/
theorem LoadsAll.cons {f : SaveFile ω} {rest : List (SaveFile ω)}
    {outcome : Except Failure LoadOutcome} {v : World ω}
    (hf : (e.load f.name w).1 = Outcome.ofExcept outcome) {x : Act ω ε _}
    (h : LoadsAll e part w rest (x v).1 (x v).2)
    (hloaded : (e.load f.name w).2.Agree e.storage f.name (part f.name) (x v).2) :
    LoadsAll e part w (f :: rest)
      ((do
        let outcomes ← x
        pure ((f.name, outcome) :: outcomes) : Act ω ε _) v).1
      ((do
        let outcomes ← x
        pure ((f.name, outcome) :: outcomes) : Act ω ε _) v).2 := by
  have hregular : ∀ p, (e.load f.name w).1 ≠ .panic p := by
    intro p hp
    rw [hf] at hp
    cases outcome <;> cases hp
  rw [Act.bind_apply]
  cases hx : x v with
  | mk o v' =>
    rw [hx] at h hloaded
    cases h with
    | @complete _ outcomes _ each loaded =>
      refine .complete ?_ (List.forall_mem_cons.2 ⟨hloaded, loaded⟩)
      rw [List.map_cons, List.map_cons, each, hf]
    | @aborted before behind g p _ regular panicked loaded unloaded =>
      show LoadsAll e part w ((f :: before) ++ g :: behind) _ _
      exact .aborted (List.forall_mem_cons.2 ⟨hregular, regular⟩) panicked
        (List.forall_mem_cons.2 ⟨hloaded, loaded⟩) unloaded

/--
Loads one after the other, from a world that agrees with the first one for each save-file that is
still to be loaded.
-/
theorem loadFiles_loadsAll (h : e.WellNamed) {l : List (String × SaveFile ω)}
    (howns : ∀ f ∈ enabledOf l, e.Owns f.name (part f.name))
    (hl : ∀ x ∈ l, x ∈ e.registry.files.entries)
    (hdistinct : l.Pairwise fun x y => x.1 ≠ y.1) {v : World ω}
    (hsteady : v.Steady)
    (hv : ∀ f ∈ enabledOf l, w.Agree e.storage f.name (part f.name) v) :
    LoadsAll e part w (enabledOf l) ((e.loadFiles l : Act ω ε _) v).1
      ((e.loadFiles l : Act ω ε _) v).2 := by
  induction l generalizing v with
  | nil => exact .complete rfl (List.forall_mem_nil _)
  | cons x rest ih =>
    obtain ⟨name, f⟩ := x
    rw [List.forall_mem_cons] at hl
    rw [List.pairwise_cons] at hdistinct
    have hget : e.registry.files.get? name = some f := (NameMap.mem_entries_iff _ name f).1 hl.1
    obtain rfl : f.name = name := (h name f hget).1
    cases hon : f.settings.enabled with
    | false =>
      have hskip : (e.loadFiles ((f.name, f) :: rest) : Act ω ε _) = e.loadFiles rest := by
        rw [loadFiles, if_neg (by simp [hon])]
      have hfiles : enabledOf ((f.name, f) :: rest) = enabledOf rest := by simp [enabledOf, hon]
      rw [hfiles] at hv howns ⊢
      rw [hskip]
      exact ih howns hl.2 hdistinct.2 hsteady hv
    | true =>
      have hfiles : enabledOf ((f.name, f) :: rest) = f :: enabledOf rest := by
        simp [enabledOf, hon]
      have halone : e.load f.name = f.load e.storage e.format := by simp [load, hget]
      rw [hfiles] at hv howns ⊢
      rw [List.forall_mem_cons] at hv howns
      have hslash := h.no_slash hget
      obtain ⟨hsame, hagree⟩ :=
        SaveFile.respects_load hslash (howns.1.own f hget) e.format w v hv.1
      have hbehind := agree_behind h hget howns.2 hl.2 hdistinct.1 hsteady hv.2
      have hkept := within_loadFiles_besides (ε := ε) h howns.1 hl.2 hdistinct.1
      have hset : v.SameSetting (f.load e.storage e.format v).2 :=
        (f.within_load_saves e.storage e.format hslash v).2
      have hsteady₁ := hsteady.of_sameSetting hset
      have answered : ∀ r, (Act.attempt (f.load e.storage e.format) : Act ω ε _) v
            = (.ok r, (f.load e.storage e.format v).2) →
          (f.load e.storage e.format v).1 = Outcome.ofExcept r →
            LoadsAll e part w (f :: enabledOf rest)
              ((e.loadFiles ((f.name, f) :: rest) : Act ω ε _) v).1
              ((e.loadFiles ((f.name, f) :: rest) : Act ω ε _) v).2 := by
        intro r hattempt hr
        obtain ⟨v₂, ha, hrow⟩ := loadFiles_cons_of_attempt hon hattempt
        rw [hrow]
        refine LoadsAll.cons ?_ (ih howns.2 hl.2 hdistinct.2
          (hsteady₁.of_sameSetting ha.toSameSetting) ?_) ?_
        · rw [halone, ← hr, hsame]
        · intro g hg
          exact agree_of_besides hsteady₁ (hbehind g hg) ((besides _ _ _).alike ha)
        · rw [halone]
          exact agree_of_besides hsteady₁ hagree ((besides _ _ _).trans ((besides _ _ _).alike ha)
            (hkept v₂))
      cases hload : f.load e.storage e.format v with
      | mk o v₁ =>
        rw [hload] at answered hsame hagree hbehind
        cases o with
        | ok outcome => exact answered (.ok outcome) (Act.attempt_of_ok hload) rfl
        | fail err => exact answered (.error err) (Act.attempt_of_fail hload) rfl
        | panic p =>
          rw [loadFiles, if_pos hon, Act.bind_apply, Act.attempt_of_panic hload]
          rw [← halone] at hsame hagree
          show LoadsAll e part w ([] ++ f :: enabledOf rest) _ _
          exact .aborted (List.forall_mem_nil _) hsame.symm (List.forall_mem_singleton.2 hagree)
            hbehind

/--
Loading all save-files of an enabled engine gives each enabled one what loading it alone gives it,
unless one of these loads panics: then it panics too, and the save-files behind are not loaded. A
save-file whose accessors do not panic has no such load.
-/
theorem loadAll_loadsAll (h : e.WellNamed) (hon : e.isEnabled = true)
    (howns : ∀ f ∈ e.enabledFiles, e.Owns f.name (part f.name))
    (hsteady : w.Steady) :
    LoadsAll e part w e.enabledFiles ((e.loadAll : Act ω ε _) w).1
        ((e.loadAll : Act ω ε _) w).2 ∧
      (w.NoPanicPlanned → ∀ f ∈ e.enabledFiles, f.WritesRegularly →
        (e.load f.name w).1.IsRegular) := by
  have hdistinct : e.registry.files.entries.Pairwise fun x y => x.1 ≠ y.1 :=
    e.registry.files.ascending.imp fun hlt => String.ne_of_lt hlt
  constructor
  · unfold loadAll
    rw [if_pos hon]
    refine loadFiles_loadsAll h howns (fun _ => id) hdistinct hsteady fun f _ => ?_
    exact ⟨⟨fun _ _ => rfl, fun _ => rfl, fun _ => rfl⟩, .refl _ _ _, rfl⟩
  · intro hplan f hf hwrites
    obtain ⟨x, hx, rfl⟩ := List.mem_map.1 (List.mem_filter.1 hf).1
    have hget : e.registry.files.get? x.2.name = some x.2 := by
      rw [(h.of_mem hx).1]
      exact NameMap.get?_of_mem hx
    simp only [load, hget]
    exact (hwrites.load e.storage e.format w hplan).1

end LoadsAll

end Engine

/-! ## A save-file behind one that cannot be written -/

namespace Sample

/-- Keeps what it is given as the first of two values, and panics. -/
def exploding : Accessor (Value × Value) :=
  ⟨fun x => (.ok x.1, x), fun v x => (.panic .other, (v, x.2))⟩

/-- Keeps what it is given as the second of two values. -/
def storing : Accessor (Value × Value) := ⟨fun x => (.ok x.2, x), fun v x => (.ok (), (x.1, v))⟩

/-- An engine with two save-files, the first of which cannot be written. -/
def restless : Engine (Value × Value) := engineWith [single "boom" exploding, single "calm" storing]

/-- The value that belongs to each of them. -/
def ownValue (name : String) : Value × Value → Value :=
  if name = "boom" then Prod.fst else Prod.snd

/-- A world with a save file for both. -/
def saved : World (Value × Value) :=
  world (.bool false, .bool false)
    ((Disk.bare.setFile [] (canonicalName "boom") "k: 1\n".toUTF8).setFile []
      (canonicalName "calm") "k: 2\n".toUTF8)

theorem wellNamed_restless : restless.WellNamed := by
  refine Engine.wellNamed_of_entries ?_
  show ∀ x ∈ [("boom", single "boom" exploding), ("calm", single "calm" storing)], _
  rw [List.forall_mem_cons, List.forall_mem_singleton]
  exact ⟨⟨rfl, except_eq_ok_of_isOk (by decide +kernel)⟩,
    rfl, except_eq_ok_of_isOk (by decide +kernel)⟩

/-- The save-files are the two that the engine was made with. -/
theorem mem_restless {name : String} {f : SaveFile (Value × Value)}
    (h : restless.registry.files.get? name = some f) :
    (name = "boom" ∧ f = single "boom" exploding) ∨ name = "calm" ∧ f = single "calm" storing := by
  have hmem : (name, f) ∈ [("boom", single "boom" exploding), ("calm", single "calm" storing)] :=
    (NameMap.mem_entries_iff _ name f).2 h
  simpa using hmem

theorem owns_boom : restless.Owns "boom" (ownValue "boom") where
  own f hf := by
    rcases mem_restless hf with ⟨-, rfl⟩ | ⟨hname, -⟩
    · show ∀ x ∈ [("k", exploding)], _
      rw [List.forall_mem_singleton]
      exact fun _ _ _ _ => ⟨rfl, rfl⟩
    · exact absurd hname (by decide)
  others other g hg hne := by
    rcases mem_restless hg with ⟨hname, -⟩ | ⟨-, rfl⟩
    · exact absurd hname hne
    · show ∀ x ∈ [("k", storing)], _
      rw [List.forall_mem_singleton]
      exact fun _ _ => rfl

theorem owns_calm : restless.Owns "calm" (ownValue "calm") where
  own f hf := by
    rcases mem_restless hf with ⟨hname, -⟩ | ⟨-, rfl⟩
    · exact absurd hname (by decide)
    · show ∀ x ∈ [("k", storing)], _
      rw [List.forall_mem_singleton]
      exact fun _ _ _ _ => ⟨rfl, rfl⟩
  others other g hg hne := by
    rcases mem_restless hg with ⟨-, rfl⟩ | ⟨hname, -⟩
    · show ∀ x ∈ [("k", exploding)], _
      rw [List.forall_mem_singleton]
      exact fun _ _ => rfl
    · exact absurd hname hne

end Sample

/-- Two save-files of which the first panics, each told by what its load alone does. -/
theorem Engine.loadAll_loadsAll_sample :
    LoadsAll Sample.restless Sample.ownValue Sample.saved Sample.restless.enabledFiles
        ((Sample.restless.loadAll : Act _ Failure _) Sample.saved).1
        ((Sample.restless.loadAll : Act _ Failure _) Sample.saved).2 ∧
      (Sample.restless.load "calm" Sample.saved).1.IsRegular := by
  have howns : ∀ f ∈ Sample.restless.enabledFiles,
      Sample.restless.Owns f.name (Sample.ownValue f.name) := by
    show ∀ f ∈ [Sample.single "boom" Sample.exploding, Sample.single "calm" Sample.storing], _
    rw [List.forall_mem_cons, List.forall_mem_singleton]
    exact ⟨Sample.owns_boom, Sample.owns_calm⟩
  have h := Engine.loadAll_loadsAll (ε := Failure) (w := Sample.saved) Sample.wellNamed_restless rfl
    howns ⟨fun _ _ _ => rfl, fun _ _ => rfl, fun _ _ => rfl⟩
  refine ⟨h.1, h.2 ⟨fun _ _ _ => ⟨nofun, nofun⟩, fun _ => rfl⟩ (Sample.single "calm" Sample.storing) ?_ ?_⟩
  · exact List.mem_cons_of_mem _ (List.mem_singleton.2 rfl)
  · show ∀ x ∈ [("k", Sample.storing)], _
    rw [List.forall_mem_singleton]
    exact fun _ _ => nofun

/--
A panic while the first save-file is loaded leaves the second one unloaded, which loaded alone has
its value restored.
-/
theorem Engine.loadAll_of_panic :
    ((Sample.restless.loadAll : Act _ Failure _) Sample.saved).1.map (fun _ => ())
        = .panic .other ∧
      ((Sample.restless.loadAll : Act _ Failure _) Sample.saved).2.vars.2 = .bool false ∧
      (Sample.restless.load "calm" Sample.saved).2.vars.2 = .int ⟨2, by decide⟩ := by
  decide +kernel

end Keepsake
