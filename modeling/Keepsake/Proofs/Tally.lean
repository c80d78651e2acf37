import Keepsake.Proofs.LoadReport
import Keepsake.Proofs.Turn
/-!
# The metrics add up

What a run of ticks, flushes and loads answers can be kept in a `Ledger`: the names of the
save-files that were saved, the number of passes, and the reports of loads. The metrics agree with
it (`Metrics.AddsUp`). Most of an operation counts nothing (`Act.Uncounted`); a save counts a size
once it is certain to be answered, a pass counts what it came to, and writing an entry counts a
failure just when it reports one. So each operation adds to the metrics what its answer adds to the
ledger, and then so does a run.
-/

namespace Keepsake

variable {ω ε δ α β : Type}

/-! ## Operations that count nothing -/

/-- An operation that leaves the metrics as they are, whatever it comes to. -/
def Act.Uncounted (x : Act ω ε α) : Prop := ∀ w, (x w).2.metrics = w.metrics

namespace Act

theorem uncounted_pure (a : α) : Uncounted (Pure.pure a : Act ω ε α) := fun _ => rfl

theorem uncounted_panic (p : Panic) : Uncounted (fun w => (.panic p, w) : Act ω ε α) := fun _ => rfl

theorem uncounted_get (g : World ω → α) : Uncounted (Act.get g : Act ω ε α) := fun _ => rfl

theorem uncounted_ofExcept (x : Except ε α) : Uncounted (Act.ofExcept x : Act ω ε α) := fun _ => rfl

theorem uncounted_tell (source : LogSource) (level : LogLevel) (message : String)
    (fields : List (String × LogValue)) :
    Uncounted (Act.tell source level message fields : Act ω ε Unit) := fun _ => rfl

theorem uncounted_onVars (g : ω → Outcome ε α × ω) : Uncounted (Act.onVars g) := fun _ => rfl

theorem uncounted_onDisk (f : Disk → Except ε Disk) : Uncounted (Act.onDisk f : Act ω ε Unit) := by
  intro w
  unfold Act.onDisk
  split <;> rfl

theorem Uncounted.bind {x : Act ω ε α} {f : α → Act ω ε β} (hx : Uncounted x)
    (hf : ∀ a, Uncounted (f a)) : Uncounted (x >>= f) := by
  intro w
  have hmetrics := hx w
  rw [bind_apply]
  split
  · next a w₁ heq =>
    rw [heq] at hmetrics
    exact (hf a w₁).trans hmetrics
  · next e w₁ heq => rwa [heq] at hmetrics
  · next p w₁ heq => rwa [heq] at hmetrics

theorem Uncounted.settle {x : Act ω ε α} (hx : Uncounted x) :
    Uncounted (Act.settle x : Act ω δ (Outcome ε α)) := hx

theorem Uncounted.attempt {x : Act ω ε α} (hx : Uncounted x) :
    Uncounted (Act.attempt x : Act ω δ (Except ε α)) := by
  intro w
  rcases attempt_cases (δ := δ) x w with ⟨r, heq, -⟩ | ⟨p, heq, -⟩ <;>
    · rw [heq]
      exact hx w

end Act

theorem World.OnlyCalled.metrics {w w' : World ω} (h : w.OnlyCalled w') :
    w'.metrics = w.metrics := by
  obtain ⟨more, rfl⟩ := h
  rfl

theorem Storage.uncounted_call (s : Storage) (c : Call) {x : Act ω Failure α}
    (hx : Act.Uncounted x) : Act.Uncounted (s.call c x) := by
  intro w
  rcases s.call_cases c x w with h | ⟨-, -, h⟩
  · rw [h]
    exact hx w.called
  · rw [h]
    rfl

theorem uncounted_takeBackup (s : Storage) (name : String) (mode : BackupMode) (stamp : Stamp) :
    Act.Uncounted (takeBackup s name mode stamp : Act ω Failure _) := by
  intro w
  cases takeBackup_probed s name mode stamp w with
  | unwanted probed _ run | struck probed _ run =>
    rw [run]
    exact probed.metrics
  | @copying target w₁ probed _ _ run =>
    have hcopy : Act.Uncounted (s.copy (canonicalName name) target : Act ω Failure Unit) :=
      s.uncounted_call .copy (Act.uncounted_onDisk _)
    rw [run, Act.bind_pure_snd]
    exact (hcopy w₁).trans probed.metrics

theorem Storage.uncounted_write (s : Storage) (data : ByteArray) (name : String) :
    Act.Uncounted (s.write data name : Act ω Failure Unit) := by
  intro w
  rcases s.write_run data name w with ⟨path, file, -, -, h⟩ | ⟨-, h⟩ <;>
    · rw [h]
      rfl

namespace SaveFile

theorem uncounted_backUpForSave (f : SaveFile ω) (s : Storage) :
    Act.Uncounted (f.backUpForSave s : Act ω ε Unit) := by
  refine (Act.uncounted_get World.now).bind fun now =>
    (uncounted_takeBackup s f.name f.settings.backupMode now).attempt.bind fun r => ?_
  rcases r with e | _ | backup
  · exact Act.uncounted_tell _ _ _ _
  · exact Act.uncounted_pure ()
  · exact Act.uncounted_tell _ _ _ _

theorem uncounted_backUpForLoad (f : SaveFile ω) (s : Storage) :
    Act.Uncounted (f.backUpForLoad s : Act ω ε _) := by
  refine (Act.uncounted_get World.now).bind fun now =>
    (uncounted_takeBackup s f.name f.settings.backupMode now).attempt.bind fun r => ?_
  cases r with
  | ok taken => exact Act.uncounted_pure taken
  | error e => exact (Act.uncounted_tell _ _ _ _).bind fun _ => Act.uncounted_pure none

theorem uncounted_readEntries (file : String) (entries : List (String × Accessor ω)) :
    Act.Uncounted (readEntries file entries : Act ω ε _) := by
  induction entries with
  | nil => exact Act.uncounted_pure _
  | cons e rest ih =>
    obtain ⟨key, a⟩ := e
    refine (Act.uncounted_onVars a.get).settle.bind fun o => ?_
    cases o with
    | ok v => exact ih.bind fun _ => Act.uncounted_pure _
    | fail e => exact (Act.uncounted_tell _ _ _ _).bind fun _ => ih
    | panic p => exact Act.uncounted_panic p

theorem uncounted_readSnapshot (f : SaveFile ω) :
    Act.Uncounted (f.readSnapshot : Act ω ε Snapshot) :=
  (uncounted_readEntries f.name f.accessors.entries).bind fun _ => Act.uncounted_pure _

theorem uncounted_fetch (f : SaveFile ω) (s : Storage) (format : Format) :
    Act.Uncounted (f.fetch s format) :=
  (f.uncounted_backUpForLoad s).bind fun _ =>
    (s.uncounted_call .load
      ((Act.uncounted_get World.disk).bind fun _ => Act.uncounted_ofExcept _)).bind fun _ =>
      (Act.uncounted_ofExcept _).bind fun _ => Act.uncounted_pure _

end SaveFile

/-! ## Ledgers -/

/-- What ticks, flushes and loads have answered. -/
structure Ledger where
  /-- the names of the save-files that were saved -/
  saved : List String
  /-- the number of passes, whatever they came to -/
  passes : Nat
  /-- the reports of loads -/
  reports : List LoadReport

namespace Ledger

/-- Nothing has been answered. -/
def empty : Ledger := ⟨[], 0, []⟩

/-- A ledger that goes on with another. -/
def append (l l' : Ledger) : Ledger :=
  ⟨l.saved ++ l'.saved, l.passes + l'.passes, l.reports ++ l'.reports⟩

/-- The entries that could not be restored, by their reports. -/
def failed (l : Ledger) : List (String × AccessFailure) := l.reports.flatMap LoadReport.failed

end Ledger

/-- What the metrics have grown by agrees with a ledger. -/
structure Metrics.AddsUp (m : Metrics) (l : Ledger) (m' : Metrics) : Prop where
  saves : m'.saves = m.saves + l.saved.length
  sizes : m'.sizes.count = m.sizes.count + l.saved.length
  /-- each pass saved, failed, or found nothing changed -/
  passes : m'.saves + m'.saveFailures + m'.unchangedSkips
    = m.saves + m.saveFailures + m.unchangedSkips + l.passes
  loadKeyFailures : m'.loadKeyFailures = m.loadKeyFailures + l.failed.length

namespace Metrics.AddsUp

theorem refl (m : Metrics) : m.AddsUp .empty m := ⟨rfl, rfl, rfl, rfl⟩

theorem trans {m₁ m₂ m₃ : Metrics} {l l' : Ledger} (h : m₁.AddsUp l m₂) (h' : m₂.AddsUp l' m₃) :
    m₁.AddsUp (l.append l') m₃ := by
  obtain ⟨hsaves, hsizes, hpasses, hfailures⟩ := h
  obtain ⟨hsaves', hsizes', hpasses', hfailures'⟩ := h'
  constructor
  · rw [Ledger.append, List.length_append]
    omega
  · rw [Ledger.append, List.length_append]
    omega
  · show m₃.saves + m₃.saveFailures + m₃.unchangedSkips
      = m₁.saves + m₁.saveFailures + m₁.unchangedSkips + (l.passes + l'.passes)
    omega
  · rw [Ledger.failed, Ledger.append, List.flatMap_append, List.length_append]
    unfold Ledger.failed at hfailures hfailures'
    omega

end Metrics.AddsUp

/-! ## Passes -/

/-- An operation that counts what its answer tells, and nothing if it does not answer. -/
def Act.CountsAs (x : Act ω ε α) (P : α → Metrics → Metrics → Prop) : Prop := ∀ w,
  (∃ a w', x w = (.ok a, w') ∧ P a w.metrics w'.metrics) ∨
    (x w).1.IsStop ∧ (x w).2.metrics = w.metrics

theorem Act.Uncounted.andThen {x : Act ω ε α} {f : α → Act ω ε β}
    {P : β → Metrics → Metrics → Prop} (hx : Uncounted x) (hf : ∀ a, CountsAs (f a) P) :
    CountsAs (x >>= f) P := by
  intro w
  have hmetrics := hx w
  rw [bind_apply]
  split
  · next a w₁ heq =>
    rw [heq] at hmetrics
    have hgo := hf a w₁
    rwa [show w₁.metrics = w.metrics from hmetrics] at hgo
  · next e w₁ heq =>
    rw [heq] at hmetrics
    exact Or.inr ⟨Outcome.isStop_fail e, hmetrics⟩
  · next p w₁ heq =>
    rw [heq] at hmetrics
    exact Or.inr ⟨Outcome.isStop_panic p, hmetrics⟩

namespace SaveFile

/-- A save that is answered has counted one size. -/
theorem countsAs_save (f : SaveFile ω) (s : Storage) (format : Format) (snapshot : Snapshot)
    (now : Nat) :
    Act.CountsAs (f.save s format snapshot now)
      fun _ m m' => ∃ size, m' = m.addSize size :=
  (Act.uncounted_ofExcept _).andThen fun data => (f.uncounted_backUpForSave s).andThen fun _ =>
    (s.uncounted_write data _).andThen fun _ _ => Or.inl ⟨_, _, rfl, data.size, rfl⟩

/-- Without a save nothing is counted, and there is none only where changes are asked for. -/
theorem countsAs_saveIfNeeded (f : SaveFile ω) (s : Storage) (format : Format) (now : Nat)
    (onlyChanged : Bool) :
    Act.CountsAs (f.saveIfNeeded s format now onlyChanged) fun saved m m' =>
      match saved with
      | some _ => ∃ size, m' = m.addSize size
      | none => onlyChanged = true ∧ m' = m := by
  refine f.uncounted_readSnapshot.andThen fun snapshot => ?_
  split
  · next hsame =>
    rw [Bool.and_eq_true] at hsame
    exact fun w => Or.inl ⟨none, w, rfl, hsame.1, rfl⟩
  · intro w
    rw [Act.bind_pure_apply]
    rcases f.countsAs_save s format snapshot now w with ⟨f', w', heq, hsize⟩ | ⟨hstop, hmetrics⟩
    · rw [heq]
      exact Or.inl ⟨some f', w', rfl, hsize⟩
    · exact Or.inr ⟨hstop.map some, hmetrics⟩

/-- What a pass counts, by its result. -/
inductive PassCounts (onlyChanged : Bool) (m : Metrics) : PassResult → Metrics → Prop where
  | saved (size : Nat) : PassCounts onlyChanged m .saved (m.addSize size).addSave
  | unchanged (only : onlyChanged = true) : PassCounts onlyChanged m .unchanged m.addUnchanged
  | failed (e : Failure) : PassCounts onlyChanged m (.failed e) m.addSaveFailure

/-- A pass counts what it comes to, whatever the accessors and the storage do. -/
theorem pass_counts (f : SaveFile ω) (s : Storage) (format : Format) (now : Nat)
    (onlyChanged : Bool) (w : World ω) :
    ∃ result f' w', (f.pass s format now onlyChanged : Act ω ε _) w = (.ok (result, f'), w') ∧
      PassCounts onlyChanged w.metrics result w'.metrics := by
  unfold pass
  rw [Act.settle_bind]
  have hcounts := f.countsAs_saveIfNeeded s format now onlyChanged w
  cases hs : f.saveIfNeeded s format now onlyChanged w with
  | mk o w₁ =>
    rw [hs] at hcounts
    rcases hcounts with ⟨saved, w', heq, hcounted⟩ | ⟨hstop, hmetrics⟩
    · cases heq
      cases saved with
      | some f' =>
        obtain ⟨size, hsize⟩ := hcounted
        refine ⟨.saved, f', _, rfl, ?_⟩
        show PassCounts _ _ _ w₁.metrics.addSave
        rw [hsize]
        exact .saved size
      | none =>
        obtain ⟨honly, hmetrics⟩ := hcounted
        refine ⟨.unchanged, f, _, rfl, ?_⟩
        show PassCounts _ _ _ w₁.metrics.addUnchanged
        rw [hmetrics]
        exact .unchanged honly
    · replace hmetrics : w₁.metrics = w.metrics := hmetrics
      cases o with
      | ok saved => exact absurd rfl (hstop saved)
      | fail e =>
        refine ⟨.failed e, f, _, rfl, ?_⟩
        show PassCounts _ _ _ w₁.metrics.addSaveFailure
        rw [hmetrics]
        exact .failed e
      | panic p =>
        refine ⟨.failed _, f, _, rfl, ?_⟩
        show PassCounts _ _ _ w₁.metrics.addSaveFailure
        rw [hmetrics]
        exact .failed _

theorem PassCounts.addsUp {onlyChanged : Bool} {m m' : Metrics} {result : PassResult}
    (h : PassCounts onlyChanged m result m') (name : String) :
    m.AddsUp ⟨if result = .saved then [name] else [], 1, []⟩ m' := by
  cases h with
  | saved size =>
    refine ⟨rfl, rfl, ?_, rfl⟩
    show m.saves + 1 + m.saveFailures + m.unchangedSkips
      = m.saves + m.saveFailures + m.unchangedSkips + 1
    omega
  | unchanged only => exact ⟨rfl, rfl, rfl, rfl⟩
  | failed e =>
    refine ⟨rfl, rfl, ?_, rfl⟩
    show m.saves + (m.saveFailures + 1) + m.unchangedSkips
      = m.saves + m.saveFailures + m.unchangedSkips + 1
    omega

/-- Only a pass that asks for changes counts that there are none. -/
theorem PassCounts.unchangedSkips_eq {m m' : Metrics} {result : PassResult}
    (h : PassCounts false m result m') : m'.unchangedSkips = m.unchangedSkips := by
  cases h with
  | saved size => rfl
  | unchanged only => cases only
  | failed e => rfl

end SaveFile

namespace Engine

/-- A row makes a pass over each save-file that is chosen, and adds up. -/
theorem runPasses_addsUp (s : Storage) (format : Format) (kind : PassKind) (now : Nat)
    (chosen : SaveFile ω → Bool) (l : List (String × SaveFile ω)) (files : NameMap (SaveFile ω))
    (w : World ω) :
    ∃ names files' w', (runPasses s format kind now chosen l files : Act ω ε _) w
        = (.ok (names, files'), w') ∧
      w.metrics.AddsUp ⟨names, (l.filter fun x => chosen x.2).length, []⟩ w'.metrics ∧
      (kind = .flush → w'.metrics.unchangedSkips = w.metrics.unchangedSkips) := by
  induction l generalizing files w with
  | nil => exact ⟨[], files, w, rfl, .refl _, fun _ => rfl⟩
  | cons x rest ih =>
    obtain ⟨name, f⟩ := x
    cases hc : chosen f with
    | false =>
      obtain ⟨names, files', w', hrun, hadds, hskips⟩ := ih files w
      refine ⟨names, files', w', ?_, ?_, hskips⟩
      · rw [runPasses, if_neg (by simp [hc])]
        exact hrun
      · rwa [List.filter_cons_of_neg (by simp [hc])]
    | true =>
      obtain ⟨result, f', w₁, hpass, hcounts⟩ :=
        f.pass_counts (ε := ε) s format now (kind = .tick) w
      obtain ⟨w₂, ⟨log, rfl⟩, hcons⟩ := runPasses_cons_of_chosen hc hpass
      obtain ⟨names, files', w', hrun, hadds, hskips⟩ := ih (files.insert name f')
        { w₁ with log }
      refine ⟨if result = .saved then f'.name :: names else names, files', w', ?_, ?_, ?_⟩
      · rw [hcons, Act.bind_of_ok hrun]
        rfl
      · have hall := (hcounts.addsUp f'.name).trans hadds
        have htaken : ((name, f) :: rest).filter (fun x => chosen x.2)
            = (name, f) :: rest.filter fun x => chosen x.2 := List.filter_cons_of_pos hc
        rw [htaken, List.length_cons, Nat.add_comm]
        by_cases hsaved : result = .saved
        · rw [if_pos hsaved] at hall ⊢
          exact hall
        · rw [if_neg hsaved] at hall ⊢
          exact hall
      · rintro rfl
        exact (hskips rfl).trans hcounts.unchangedSkips_eq

/-- The save-files that a round makes passes over. -/
def turns (e : Engine ω) (kind : PassKind) (now : Nat) : List (String × SaveFile ω) :=
  if e.isEnabled then e.registry.files.entries.filter fun x => e.chosen kind now x.2 else []

/-- A round is always answered, and adds up; a flush counts nothing as unchanged. -/
theorem round_addsUp (e : Engine ω) (kind : PassKind) (now : Nat) (w : World ω) :
    ∃ names e' w', (e.round kind now : Act ω ε _) w = (.ok (names, e'), w') ∧
      w.metrics.AddsUp ⟨names, (e.turns kind now).length, []⟩ w'.metrics ∧
      (kind = .flush → w'.metrics.unchangedSkips = w.metrics.unchangedSkips) := by
  rw [round_eq]
  unfold passes turns
  split
  · obtain ⟨names, files, w', hrun, hadds, hskips⟩ := runPasses_addsUp (ε := ε) e.storage e.format
      kind now (e.chosen kind now) e.registry.files.entries e.registry.files w
    refine ⟨names, { e with registry := { e.registry with files } }, w', ?_, hadds, hskips⟩
    rw [Act.bind_of_ok hrun]
    rfl
  · exact ⟨[], e, w, rfl, .refl _, fun _ => rfl⟩

end Engine

/-! ## Loads -/

/-- The metrics with some more entries that could not be restored. -/
def Metrics.addLoadKeyFailures (m : Metrics) (n : Nat) : Metrics :=
  { m with loadKeyFailures := m.loadKeyFailures + n }

namespace SaveFile

/-- A call counts a failure if that is what it is reported with. -/
theorem afterCall_counts (f : SaveFile ω) (key : String) (v : Value) (answer : Attempt Unit × ω)
    (h : answer.1.IsRegular) (w : World ω) (r : LoadReport) :
    (f.afterCall key answer w).metrics.addLoadKeyFailures r.failed.length
      = w.metrics.addLoadKeyFailures (r.withCall ⟨key, v, answer.1⟩).failed.length := by
  obtain ⟨o, vars⟩ := answer
  cases o with
  | ok u => rfl
  | fail e =>
    show Metrics.mk _ _ _ (w.metrics.loadKeyFailures + 1 + r.failed.length) _
      = Metrics.mk _ _ _ (w.metrics.loadKeyFailures + (r.failed.length + 1)) _
    rw [Nat.add_assoc, Nat.add_comm 1]
    rfl
  | panic p => exact absurd rfl (h p)

/-- Written entries are counted as lost if they are reported so. -/
theorem applyEntries_metrics (f : SaveFile ω) (backup : Option String)
    (entries : List (String × Value)) {w w' : World ω} {r : LoadReport}
    (h : (f.applyEntries backup entries : Act ω ε _) w = (.ok r, w')) :
    w'.metrics = w.metrics.addLoadKeyFailures r.failed.length := by
  induction entries generalizing w r with
  | nil =>
    cases h
    rfl
  | cons e rest ih =>
    obtain ⟨key, v⟩ := e
    cases hget : f.accessors.get? key with
    | none =>
      rw [applyEntries_skip hget] at h
      obtain ⟨hok, rfl⟩ := Prod.mk.inj h
      obtain ⟨r₁, hrest, rfl⟩ := Outcome.map_eq_ok hok
      have hcounted := ih (w := f.afterSkip key w) (r := r₁) (Prod.ext hrest rfl)
      exact hcounted
    | some a =>
      by_cases hpanic : ∃ p, (a.set v w.vars).1 = .panic p
      · obtain ⟨p, hp⟩ := hpanic
        rw [applyEntries_panic hget hp] at h
        cases h
      · have hregular : (a.set v w.vars).1.IsRegular := fun p hp => hpanic ⟨p, hp⟩
        rw [applyEntries_call hget hregular] at h
        obtain ⟨hok, rfl⟩ := Prod.mk.inj h
        obtain ⟨r₁, hrest, rfl⟩ := Outcome.map_eq_ok hok
        rw [ih (r := r₁) (Prod.ext hrest rfl)]
        exact afterCall_counts f key v (a.set v w.vars) hregular w r₁

end SaveFile

theorem Metrics.addsUp_loaded (m : Metrics) (r : LoadReport) :
    m.AddsUp ⟨[], 0, [r]⟩ (m.addLoadKeyFailures r.failed.length) := by
  refine ⟨rfl, rfl, rfl, ?_⟩
  rw [Ledger.failed, List.flatMap_singleton]
  rfl

/-- The report that a load has returned, if there is one. -/
def reportsOf : Except Failure LoadOutcome → List LoadReport
  | .ok (.loaded r) => [r]
  | .ok .nothingToLoad => []
  | .error _ => []

namespace SaveFile

/-- Writing what was read is reported and counted, unless an accessor panics. -/
theorem writeOut_counts (f : SaveFile ω) (backup : Option String) (snapshot : Snapshot)
    (w : World ω) :
    (∃ r w', f.writeOut backup snapshot w = (.ok (.loaded r), w') ∧
        w'.metrics = w.metrics.addLoadKeyFailures r.failed.length) ∨
      ∃ p w', f.writeOut backup snapshot w = (.panic p, w') := by
  obtain ⟨calls, -, hend, -⟩ := applyEntries_end (ε := Failure) f backup snapshot.entries w
  unfold writeOut
  cases hrun : (f.applyEntries backup snapshot.entries : Act ω Failure _) w with
  | mk o w₁ =>
    rw [hrun] at hend
    cases hend with
    | reported kept answered =>
      have hcounted := applyEntries_metrics f backup snapshot.entries hrun
      rw [Act.bind_of_ok hrun]
      exact Or.inl ⟨_, _, rfl, hcounted⟩
    | panicked last answer front =>
      rw [Act.bind_apply, hrun]
      exact Or.inr ⟨_, _, rfl⟩

/-- A load that returns counts the entries that it reports as lost. -/
theorem load_addsUp (f : SaveFile ω) (s : Storage) (format : Format) {w w' : World ω}
    {answer : Except Failure LoadOutcome}
    (h : (Act.attempt (f.load s format) : Act ω δ _) w = (.ok answer, w')) :
    w.metrics.AddsUp ⟨[], 0, reportsOf answer⟩ w'.metrics := by
  cases f.load_probed s format w with
  | absent _ _ run told =>
    rw [Act.attempt_of_ok run] at h
    cases h
    rw [told]
    exact .refl _
  | struck _ run =>
    rw [Act.attempt_of_panic run] at h
    cases h
  | there _ _ hload =>
    have hfetch := f.uncounted_fetch s format w.called
    cases hrun : f.fetch s format w.called with
    | mk o w₁ =>
      rw [hrun] at hfetch
      replace hfetch : w₁.metrics = w.metrics := hfetch
      cases o with
      | ok fetched =>
        obtain ⟨backup, snapshot⟩ := fetched
        rw [Act.bind_of_ok hrun] at hload
        rcases f.writeOut_counts backup snapshot w₁ with
          ⟨r, w₂, hwritten, hmetrics⟩ | ⟨p, w₂, hpanic⟩
        · rw [Act.attempt_of_ok (hload.trans hwritten)] at h
          cases h
          rw [hmetrics, hfetch]
          exact Metrics.addsUp_loaded _ r
        · rw [Act.attempt_of_panic (hload.trans hpanic)] at h
          cases h
      | fail e =>
        rw [Act.bind_apply, hrun] at hload
        rw [Act.attempt_of_fail hload] at h
        cases h
        rw [hfetch]
        exact .refl _
      | panic p =>
        rw [Act.bind_apply, hrun] at hload
        rw [Act.attempt_of_panic hload] at h
        cases h

end SaveFile

namespace Engine

theorem load_addsUp (e : Engine ω) (name : String) {w w' : World ω}
    {answer : Except Failure LoadOutcome}
    (h : (Act.attempt (e.load name) : Act ω δ _) w = (.ok answer, w')) :
    w.metrics.AddsUp ⟨[], 0, reportsOf answer⟩ w'.metrics := by
  unfold load at h
  cases hget : e.registry.files.get? name with
  | some f =>
    rw [hget] at h
    exact f.load_addsUp e.storage e.format h
  | none =>
    rw [hget] at h
    cases h
    exact .refl _

/-- Loads of several save-files count what they report, each of them. -/
theorem loadFiles_addsUp (e : Engine ω) (l : List (String × SaveFile ω)) {w w' : World ω}
    {outcomes : List (String × Except Failure LoadOutcome)}
    (h : (e.loadFiles l : Act ω ε _) w = (.ok outcomes, w')) :
    w.metrics.AddsUp ⟨[], 0, outcomes.flatMap fun x => reportsOf x.2⟩ w'.metrics := by
  induction l generalizing w outcomes with
  | nil =>
    cases h
    exact .refl _
  | cons x rest ih =>
    obtain ⟨name, f⟩ := x
    by_cases hon : f.settings.enabled = true
    · rw [loadFiles, if_pos hon] at h
      obtain ⟨answer, w₁, hload, h⟩ := Act.bind_eq_ok h
      have hfirst := f.load_addsUp e.storage e.format hload
      -- a load that was abandoned is logged before the others go on
      have hgo : ∃ log outcomes', (e.loadFiles rest : Act ω ε _) { w₁ with log }
          = (.ok outcomes', w') ∧ outcomes = (f.name, answer) :: outcomes' := by
        cases answer with
        | ok outcome =>
          obtain ⟨outcomes', w₂, hrest, h⟩ := Act.bind_eq_ok h
          cases h
          exact ⟨w₁.log, outcomes', hrest, rfl⟩
        | error err =>
          obtain ⟨u, w₂, htell, h⟩ := Act.bind_eq_ok h
          cases htell
          obtain ⟨outcomes', w₃, hrest, h⟩ := Act.bind_eq_ok h
          cases h
          exact ⟨_, outcomes', hrest, rfl⟩
      obtain ⟨log, outcomes', hrest, rfl⟩ := hgo
      have hbehind := ih (w := { w₁ with log }) hrest
      exact hfirst.trans hbehind
    · rw [loadFiles, if_neg hon] at h
      exact ih h

theorem loadAll_addsUp (e : Engine ω) {w w' : World ω}
    {outcomes : List (String × Except Failure LoadOutcome)}
    (h : (e.loadAll : Act ω ε _) w = (.ok outcomes, w')) :
    w.metrics.AddsUp ⟨[], 0, outcomes.flatMap fun x => reportsOf x.2⟩ w'.metrics := by
  unfold loadAll at h
  split at h
  · exact e.loadFiles_addsUp _ h
  · cases h
    exact .refl _

end Engine

/-! ## Runs -/

/--
A run of ticks, flushes and loads of an engine, with the ledger of what they answered. Between them
anything may happen to the world but for its metrics; loads are those that return.
-/
inductive Engine.Booked (e₀ : Engine ω) (w₀ : World ω) : Ledger → Engine ω → World ω → Prop where
  | start : Booked e₀ w₀ .empty e₀ w₀
  | tick {l : Ledger} {e e' : Engine ω} {w w' : World ω} {names : List String}
    (run : Booked e₀ w₀ l e w) (now : Nat)
    (answer : (e.tick now : Act ω Failure _) w = (.ok (names, e'), w')) :
    Booked e₀ w₀ (l.append ⟨names, (e.turns .tick now).length, []⟩) e' w'
  | flush {l : Ledger} {e e' : Engine ω} {w w' : World ω} {names : List String}
    (run : Booked e₀ w₀ l e w) (now : Nat)
    (answer : (e.flush now : Act ω Failure _) w = (.ok (names, e'), w')) :
    Booked e₀ w₀ (l.append ⟨names, (e.turns .flush now).length, []⟩) e' w'
  | load {l : Ledger} {e : Engine ω} {w w' : World ω} {answered : Except Failure LoadOutcome}
    (run : Booked e₀ w₀ l e w) (name : String)
    (answer : (Act.attempt (e.load name) : Act ω Failure _) w = (.ok answered, w')) :
    Booked e₀ w₀ (l.append ⟨[], 0, reportsOf answered⟩) e w'
  | loadAll {l : Ledger} {e : Engine ω} {w w' : World ω}
    {outcomes : List (String × Except Failure LoadOutcome)}
    (run : Booked e₀ w₀ l e w)
    (answer : (e.loadAll : Act ω Failure _) w = (.ok outcomes, w')) :
    Booked e₀ w₀ (l.append ⟨[], 0, outcomes.flatMap fun x => reportsOf x.2⟩) e w'
  | elsewhere {l : Ledger} {e : Engine ω} {w : World ω} (run : Booked e₀ w₀ l e w) (w' : World ω)
    (same : w'.metrics = w.metrics) : Booked e₀ w₀ l e w'

namespace Engine

variable {e₀ e : Engine ω} {w₀ w : World ω} {l : Ledger}

theorem Booked.addsUp (h : e₀.Booked w₀ l e w) : w₀.metrics.AddsUp l w.metrics := by
  induction h with
  | start => exact .refl _
  | @tick l e e' w w' names run now answer ih =>
    obtain ⟨names', e'', w'', hround, hadds, -⟩ := e.round_addsUp (ε := Failure) .tick now w
    cases answer.symm.trans hround
    exact ih.trans hadds
  | @flush l e e' w w' names run now answer ih =>
    obtain ⟨names', e'', w'', hround, hadds, -⟩ := e.round_addsUp (ε := Failure) .flush now w
    cases answer.symm.trans hround
    exact ih.trans hadds
  | load run name answer ih => exact ih.trans (load_addsUp _ name answer)
  | loadAll run answer ih => exact ih.trans (loadAll_addsUp _ answer)
  | elsewhere run w' same ih => exact same ▸ ih

/--
Over every run the metrics grow by what was answered. Wherever it has come to, ticks and flushes are
answered, and a flush counts nothing as unchanged.
-/
theorem metrics_of_booked (h : e₀.Booked w₀ l e w) :
    w₀.metrics.AddsUp l w.metrics ∧ ∀ now,
      (∃ names e' w', (e.tick now : Act ω Failure _) w = (.ok (names, e'), w')) ∧
      ∃ names e' w', (e.flush now : Act ω Failure _) w = (.ok (names, e'), w') ∧
        w'.metrics.unchangedSkips = w.metrics.unchangedSkips := by
  refine ⟨h.addsUp, fun now => ⟨?_, ?_⟩⟩
  · obtain ⟨names, e', w', hround, -⟩ := e.round_addsUp (ε := Failure) .tick now w
    exact ⟨names, e', w', hround⟩
  · obtain ⟨names, e', w', hround, -, hskips⟩ := e.round_addsUp (ε := Failure) .flush now w
    exact ⟨names, e', w', hround, hskips rfl⟩

end Engine

namespace Sample

/-- An engine over one cell, with a text in it. -/
def greeter : Engine Cell := engine [.accessor none "greeting" Cell.accessor]

def greeting : World Cell := world (Cell.ofValue (.text "hello")) Disk.bare

/-- The world behind a first tick, with a cell that takes no text any more. -/
def mismatched : World Cell := { ticked.2 with vars := Cell.ofValue (.bool true) }

/-- The first tick, and a load that cannot restore the text. -/
theorem booked_mismatched : ∃ l, greeter.Booked greeting l ticked.1
    (ticked.1.load "auto" mismatched).2 ∧ l.passes = 1 ∧ l.failed.length = 1 := by
  obtain ⟨names, e', w', hround, -⟩ := greeter.round_addsUp (ε := Failure) .tick 5 greeting
  have htick : (greeter.tick 5 : Act Cell Failure _) greeting = (.ok (names, e'), w') := hround
  have hticked : ticked = (e', w') := by
    show greeter.behind ((greeter.tick 5 >>= fun a => pure a.2 : Act Cell Failure _) greeting) = _
    rw [Act.bind_of_ok htick]
    rfl
  have hload : (ticked.1.load "auto" mismatched).1 = .ok (.loaded ⟨[], [],
      [("greeting", .typeMismatch "bool" "string")],
      some (timestampedName "auto" mismatched.clock)⟩) := by
    decide +kernel
  have hfirst : greeter.Booked greeting (Ledger.empty.append ⟨names, 1, []⟩) ticked.1 ticked.2 := by
    have hturns : (greeter.turns .tick 5).length = 1 := by decide +kernel
    rw [hticked, ← hturns]
    exact .tick .start 5 htick
  have hrun := hfirst.elsewhere mismatched rfl
  exact ⟨_, hrun.load "auto" (Act.attempt_of_ok (Prod.ext hload rfl)), rfl, rfl⟩

end Sample

/-- A tick that saves one cell and a load that cannot restore it are counted as just that. -/
theorem Engine.metrics_of_booked_sample :
    ∃ l, Sample.greeter.Booked Sample.greeting l Sample.ticked.1
        (Sample.ticked.1.load "auto" Sample.mismatched).2 ∧
      (l.saved.length = 1 ∧ l.passes = 1 ∧ l.failed.length = 1) ∧
      Sample.greeting.metrics.AddsUp l (Sample.ticked.1.load "auto" Sample.mismatched).2.metrics := by
  obtain ⟨l, hrun, hpasses, hfailed⟩ := Sample.booked_mismatched
  have hadds := (Engine.metrics_of_booked hrun).1
  have hsaves : (Sample.ticked.1.load "auto" Sample.mismatched).2.metrics.saves = 1 := by
    decide +kernel
  have hsaved : 1 = 0 + l.saved.length := hsaves.symm.trans hadds.saves
  exact ⟨l, hrun, ⟨by omega, hpasses, hfailed⟩, hadds⟩

end Keepsake
