import Keepsake.Proofs.AllOrNothing
import Keepsake.Proofs.LoadIsolation
/-!
# What a load writes and reports

The accessors of a save-file can be made to put on record how they are written (`recorded`), and a
load of such a save-file is the same load, with a record of its calls. These are known from the
report: there is one call for each key of the save file that has an accessor, with the value in the
file, and the key is reported by what the call answered (`Reports`).

The last save is part of the save-file and not of the world. A load has only the world to act on,
and so leaves it as it is.
-/

namespace Keepsake

variable {ω ε δ α β : Type}

/-! ## Accessors on record -/

/-- A call that writes through the accessor of a key. -/
structure SetCall where
  key : String
  value : Value
  answer : Attempt Unit

/-- The accessor, with its writes put on record. -/
def Accessor.recorded (key : String) (a : Accessor ω) : Accessor (ω × List SetCall) where
  get := fun x => ((a.get x.1).1, (a.get x.1).2, x.2)
  set := fun v x => ((a.set v x.1).1, (a.set v x.1).2, x.2 ++ [⟨key, v, (a.set v x.1).1⟩])

/-- Puts something else under each name. -/
def NameMap.mapNamed (g : String → α → β) (m : NameMap α) : NameMap β :=
  ⟨m.entries.map fun e => (e.1, g e.1 e.2), List.pairwise_map.2 m.ascending⟩

theorem NameMap.get?_mapNamed (g : String → α → β) (m : NameMap α) (name : String) :
    (m.mapNamed g).get? name = (m.get? name).map (g name) := by
  obtain ⟨entries, h⟩ := m
  show NameMap.lookup name (entries.map _) = (NameMap.lookup name entries).map (g name)
  clear h
  induction entries with
  | nil => rfl
  | cons e rest ih =>
    obtain ⟨key, a⟩ := e
    simp only [List.map_cons, NameMap.lookup]
    split
    · next heq => rw [heq]; rfl
    · exact ih

/-- The save-file over variables that come with a record of how they were written. -/
def SaveFile.recorded (f : SaveFile ω) : SaveFile (ω × List SetCall) :=
  ⟨f.settings, f.accessors.mapNamed Accessor.recorded, f.lastSave⟩

/-- The world with a record beside its variables. -/
def World.recorded (w : World ω) (record : List SetCall) : World (ω × List SetCall) :=
  { w with vars := (w.vars, record) }

/-- An operation that does the same beside a record, and puts nothing on it. -/
def Act.Silent (x : Act ω ε α) (x' : Act (ω × List SetCall) ε α) : Prop :=
  ∀ w record, x' (w.recorded record) = ((x w).1, (x w).2.recorded record)

namespace Act

theorem silent_pure (a : α) : Silent (Pure.pure a : Act ω ε α) (Pure.pure a) := fun _ _ => rfl

theorem silent_ofExcept (x : Except ε α) : Silent (Act.ofExcept x : Act ω ε α) (Act.ofExcept x) :=
  fun _ _ => rfl

theorem silent_tell (source : LogSource) (level : LogLevel) (message : String)
    (fields : List (String × LogValue)) :
    Silent (Act.tell source level message fields : Act ω ε Unit)
      (Act.tell source level message fields) := fun _ _ => rfl

theorem silent_onDisk (f : Disk → Except ε Disk) :
    Silent (Act.onDisk f : Act ω ε Unit) (Act.onDisk f) := by
  intro w record
  unfold Act.onDisk
  simp only [World.recorded]
  split <;> rfl

theorem silent_disk : Silent (Act.get World.disk : Act ω ε Disk) (Act.get World.disk) :=
  fun _ _ => rfl

theorem silent_now : Silent (Act.get World.now : Act ω ε Stamp) (Act.get World.now) :=
  fun _ _ => rfl

theorem silent_ofOutcome (o : Outcome ε α) : Silent (Act.ofOutcome o : Act ω ε α)
    (Act.ofOutcome o) := fun _ _ => rfl

theorem Silent.bind {x : Act ω ε α} {x' : Act (ω × List SetCall) ε α} {f : α → Act ω ε β}
    {f' : α → Act (ω × List SetCall) ε β} (hx : Silent x x') (hf : ∀ a, Silent (f a) (f' a)) :
    Silent (x >>= f) (x' >>= f') := by
  intro w record
  rw [bind_apply, bind_apply, hx w record]
  cases x w with
  | mk o w' =>
    cases o with
    | ok a => exact hf a w' record
    | fail e => rfl
    | panic p => rfl

theorem Silent.attempt {x : Act ω ε α} {x' : Act (ω × List SetCall) ε α} (hx : Silent x x') :
    Silent (Act.attempt x : Act ω δ (Except ε α)) (Act.attempt x') := by
  intro w record
  unfold Act.attempt
  rw [hx w record]
  cases x w with
  | mk o w' => cases o <;> rfl

end Act

theorem Storage.silent_call (s : Storage) (c : Call) {x : Act ω Failure α}
    {x' : Act (ω × List SetCall) Failure α} (hx : Act.Silent x x') :
    Act.Silent (s.call c x) (s.call c x') := by
  have hsteps : ∀ late, Act.Silent (do Act.ofOutcome late; x) (do Act.ofOutcome late; x') :=
    fun late => (Act.silent_ofOutcome late).bind fun _ => hx
  intro w record
  unfold call callInSteps
  have hplan : (w.recorded record).plan (w.recorded record).calls c = w.plan w.calls c := rfl
  rw [hplan]
  cases if s.exposed then w.plan w.calls c else none with
  | none => exact hsteps _ w.called record
  | some fault =>
    cases fault with
    | fail f => rfl
    | panic p => rfl
    | failStaged f => exact hsteps _ w.called record
    | panicStaged p => exact hsteps _ w.called record

theorem Storage.silent_probe (s : Storage) (name : String) :
    Act.Silent (s.probe name : Act ω ε Bool) (s.probe name) := by
  intro w record
  unfold probe
  have hprobes : (w.recorded record).probes (w.recorded record).calls = w.probes w.calls := rfl
  rw [hprobes]
  cases if s.exposed then w.probes w.calls else none <;> rfl

theorem silent_findFreeName (s : Storage) (base : String) (counter tries : Nat) :
    Act.Silent (findFreeName s base counter tries : Act ω ε String)
      (findFreeName s base counter tries) := by
  induction tries generalizing counter with
  | zero => exact Act.silent_pure _
  | succ tries ih =>
    refine (s.silent_probe _).bind fun there => ?_
    split
    · exact ih (counter + 1)
    · exact Act.silent_pure _

theorem silent_takeBackup (s : Storage) (name : String) (mode : BackupMode) (stamp : Stamp) :
    Act.Silent (takeBackup s name mode stamp : Act ω Failure _) (takeBackup s name mode stamp) := by
  have hnext : Act.Silent (nextBackup s name mode stamp : Act ω Failure _)
      (nextBackup s name mode stamp) := by
    cases mode with
    | off => exact Act.silent_pure none
    | rotating => exact Act.silent_pure _
    | timestamped =>
      exact Act.silent_disk.bind fun d =>
        (silent_findFreeName s _ 0 _).bind fun target => Act.silent_pure (some target)
  unfold takeBackup
  split
  · exact Act.silent_pure none
  · refine (s.silent_probe _).bind fun there => ?_
    split
    · refine hnext.bind fun target => ?_
      cases target with
      | none => exact Act.silent_pure none
      | some target =>
        exact (s.silent_call .copy (Act.silent_onDisk _)).bind fun _ => Act.silent_pure _
    · exact Act.silent_pure none

theorem SaveFile.silent_backUpForLoad (f : SaveFile ω) (s : Storage) :
    Act.Silent (f.backUpForLoad s : Act ω ε _) (f.recorded.backUpForLoad s) := by
  refine Act.silent_now.bind fun now =>
    (silent_takeBackup s f.name f.settings.backupMode now).attempt.bind fun r => ?_
  cases r with
  | ok taken => exact Act.silent_pure taken
  | error e => exact (Act.silent_tell _ _ _ _).bind fun _ => Act.silent_pure none

/-! ## Written entries -/

/-- What a call failed with, by its key. -/
def SetCall.failure? (c : SetCall) : Option (String × AccessFailure) :=
  match c.answer with
  | .fail e => some (c.key, e)
  | _ => none

/-- A report with one more call, by what it answered. -/
def LoadReport.withCall (c : SetCall) (r : LoadReport) : LoadReport :=
  match c.answer with
  | .ok () => { r with applied := c.key :: r.applied }
  | .fail e => { r with failed := (c.key, e) :: r.failed }
  | .panic _ => r

namespace SaveFile

/-- Calls one after the other, with what they answer and what they do to the variables. -/
inductive Writes (f : SaveFile ω) : List SetCall → ω → ω → Prop where
  | nil (vars : ω) : Writes f [] vars vars
  | cons {key : String} {a : Accessor ω} {calls : List SetCall} {vars vars' : ω} (value : Value)
    (registered : f.accessors.get? key = some a)
    (rest : Writes f calls (a.set value vars).2 vars') :
    Writes f (⟨key, value, (a.set value vars).1⟩ :: calls) vars vars'

/-- The entries that there are accessors for. -/
def registeredOf (f : SaveFile ω) (entries : List (String × Value)) : List (String × Value) :=
  entries.filter fun e => f.accessors.contains e.1

theorem registeredOf_cons {f : SaveFile ω} {key : String} (h : f.accessors.contains key = true)
    (v : Value) (entries : List (String × Value)) :
    f.registeredOf ((key, v) :: entries) = (key, v) :: f.registeredOf entries :=
  List.filter_cons_of_pos h

theorem registeredOf_cons_of_not {f : SaveFile ω} {key : String}
    (h : f.accessors.contains key = false) (v : Value) (entries : List (String × Value)) :
    f.registeredOf ((key, v) :: entries) = f.registeredOf entries :=
  List.filter_cons_of_neg (by simp [h])

/-- The calls that are made for entries, and how these are reported. -/
structure Answered (f : SaveFile ω) (entries : List (String × Value)) (calls : List SetCall)
    (r : LoadReport) : Prop where
  called : calls.map (fun c => (c.key, c.value)) = f.registeredOf entries
  regular : ∀ c ∈ calls, c.answer.IsRegular
  applied : r.applied = (calls.filter fun c => c.answer = .ok ()).map SetCall.key
  failed : r.failed = calls.filterMap SetCall.failure?
  unknown : r.unknownKeys = (entries.filter fun e => !f.accessors.contains e.1).map Prod.fst

/-- How writing entries ends: all of them are reported, or the last call panicked. -/
inductive WriteEnd (f : SaveFile ω) (backup : Option String) (entries : List (String × Value))
    (calls : List SetCall) : Outcome ε LoadReport → Prop where
  | reported {r : LoadReport} (kept : r.backup = backup) (answered : f.Answered entries calls r) :
    WriteEnd f backup entries calls (.ok r)
  | panicked {c : SetCall} {p : Panic} (last : calls.getLast? = some c)
    (answer : c.answer = .panic p)
    (front : calls.map (fun c => (c.key, c.value)) <+: f.registeredOf entries) :
    WriteEnd f backup entries calls (.panic p)

section WriteEnd

variable {f : SaveFile ω} {backup : Option String} {entries : List (String × Value)}
  {calls : List SetCall} {key : String} {v : Value}

theorem WriteEnd.skip {o : Outcome ε LoadReport} (h : f.WriteEnd backup entries calls o)
    (hget : f.accessors.get? key = none) :
    f.WriteEnd backup ((key, v) :: entries) calls
      (o.map fun r => { r with unknownKeys := key :: r.unknownKeys }) := by
  have hno : f.accessors.contains key = false := by simp [NameMap.contains, hget]
  have hrow := registeredOf_cons_of_not hno v entries
  cases h with
  | reported kept answered =>
    refine .reported kept ⟨hrow ▸ answered.called, answered.regular, answered.applied,
      answered.failed, ?_⟩
    simp [hno, answered.unknown]
  | panicked last answer front => exact .panicked last answer (hrow ▸ front)

theorem WriteEnd.call {o : Outcome ε LoadReport} (h : f.WriteEnd backup entries calls o)
    (hget : f.accessors.contains key = true) {answer : Attempt Unit} (hanswer : answer.IsRegular) :
    f.WriteEnd backup ((key, v) :: entries) (⟨key, v, answer⟩ :: calls)
      (o.map (LoadReport.withCall ⟨key, v, answer⟩)) := by
  have hrow := registeredOf_cons hget v entries
  cases h with
  | @reported r kept answered =>
    obtain ⟨hcalled, hregular, happlied, hfailed, hunknown⟩ := answered
    have hcalled' : (⟨key, v, answer⟩ :: calls).map (fun c : SetCall => (c.key, c.value))
        = f.registeredOf ((key, v) :: entries) := by
      rw [hrow, List.map_cons, hcalled]
    have hregular' : ∀ c ∈ (⟨key, v, answer⟩ :: calls : List SetCall), c.answer.IsRegular :=
      List.forall_mem_cons.2 ⟨hanswer, hregular⟩
    cases answer with
    | ok u =>
      refine .reported kept ⟨hcalled', hregular', ?_, ?_, ?_⟩
      · simp [LoadReport.withCall, happlied]
      · rw [List.filterMap_cons_none rfl]
        exact hfailed
      · simp [LoadReport.withCall, hget, hunknown]
    | fail e =>
      refine .reported kept ⟨hcalled', hregular', ?_, ?_, ?_⟩
      · simp [LoadReport.withCall, happlied]
      · have hfailure : SetCall.failure? ⟨key, v, .fail e⟩ = some (key, e) := rfl
        rw [List.filterMap_cons_some hfailure, ← hfailed]
        rfl
      · simp [LoadReport.withCall, hget, hunknown]
    | panic p => exact absurd rfl (hanswer p)
  | panicked last answer front =>
    refine .panicked ?_ answer ?_
    · rw [List.getLast?_cons, last]
      rfl
    · rw [hrow, List.map_cons, List.cons_prefix_cons]
      exact ⟨rfl, front⟩

theorem WriteEnd.panic (hget : f.accessors.contains key = true) (p : Panic) :
    f.WriteEnd backup ((key, v) :: entries) [⟨key, v, .panic p⟩]
      (.panic p : Outcome ε LoadReport) := by
  refine .panicked rfl rfl ?_
  rw [registeredOf_cons hget]
  exact ⟨f.registeredOf entries, rfl⟩

end WriteEnd

theorem get?_recorded (f : SaveFile ω) (key : String) :
    f.recorded.accessors.get? key = (f.accessors.get? key).map (Accessor.recorded key) :=
  NameMap.get?_mapNamed Accessor.recorded f.accessors key

/-- The world behind an entry that was skipped. -/
def afterSkip (f : SaveFile ω) (key : String) (w : World ω) : World ω :=
  { w with log := ⟨.loader, .warn, "skipping entry",
      [("file", .text f.name), ("error", .text (Failure.unknownKey key).message)]⟩ :: w.log }

/-- The world behind a call, by what the call answered and what variables it left. -/
def afterCall (f : SaveFile ω) (key : String) (r : Attempt Unit × ω) (w : World ω) : World ω :=
  match r.1 with
  | .fail e => { w with
      vars := r.2
      log := ⟨.loader, .warn, "failed to restore value",
        [("file", .text f.name), ("error", .text (Failure.access key e).message)]⟩ :: w.log
      metrics := Metrics.addLoadKeyFailure w.metrics }
  | _ => { w with vars := r.2 }

section Steps

variable {f : SaveFile ω} {backup : Option String} {key : String} {v : Value}
  {rest : List (String × Value)}

theorem applyEntries_skip (hget : f.accessors.get? key = none) (w : World ω) :
    (f.applyEntries backup ((key, v) :: rest) : Act ω ε _) w =
      (((f.applyEntries backup rest : Act ω ε _) (f.afterSkip key w)).1.map
          fun r => { r with unknownKeys := key :: r.unknownKeys },
        ((f.applyEntries backup rest : Act ω ε _) (f.afterSkip key w)).2) := by
  rw [applyEntries, hget]
  exact Act.bind_pure_apply (f.applyEntries backup rest) _ (f.afterSkip key w)

theorem applyEntries_call {a : Accessor ω} (hget : f.accessors.get? key = some a) {w : World ω}
    (hregular : (a.set v w.vars).1.IsRegular) :
    (f.applyEntries backup ((key, v) :: rest) : Act ω ε _) w =
      (((f.applyEntries backup rest : Act ω ε _) (f.afterCall key (a.set v w.vars) w)).1.map
          (LoadReport.withCall ⟨key, v, (a.set v w.vars).1⟩),
        ((f.applyEntries backup rest : Act ω ε _) (f.afterCall key (a.set v w.vars) w)).2) := by
  rw [applyEntries, hget]
  simp only [Act.settle_bind, Act.onVars_apply]
  cases hset : a.set v w.vars with
  | mk answer vars =>
    cases answer with
    | ok u => exact Act.bind_pure_apply (f.applyEntries backup rest) _ _
    | fail e => exact Act.bind_pure_apply (f.applyEntries backup rest) _ _
    | panic p =>
      rw [hset] at hregular
      exact absurd rfl (hregular p)

theorem applyEntries_panic {a : Accessor ω} (hget : f.accessors.get? key = some a) {w : World ω}
    {p : Panic} (hpanic : (a.set v w.vars).1 = .panic p) :
    (f.applyEntries backup ((key, v) :: rest) : Act ω ε _) w =
      (.panic p, f.afterCall key (a.set v w.vars) w) := by
  rw [applyEntries, hget]
  simp only [Act.settle_bind, Act.onVars_apply, afterCall, hpanic]

end Steps

theorem afterCall_vars (f : SaveFile ω) (key : String) (r : Attempt Unit × ω) (w : World ω) :
    (f.afterCall key r w).vars = r.2 := by
  unfold afterCall
  split <;> rfl

/-- The entries of a save file are written by one call for each that has an accessor. -/
theorem applyEntries_end (f : SaveFile ω) (backup : Option String) (entries : List (String × Value))
    (w : World ω) : ∃ calls,
      f.Writes calls w.vars ((f.applyEntries backup entries : Act ω ε _) w).2.vars ∧
      f.WriteEnd backup entries calls ((f.applyEntries backup entries : Act ω ε _) w).1 ∧
      ∀ record, (f.recorded.applyEntries backup entries : Act _ ε _) (w.recorded record)
        = (((f.applyEntries backup entries : Act ω ε _) w).1,
          ((f.applyEntries backup entries : Act ω ε _) w).2.recorded (record ++ calls)) := by
  induction entries generalizing w with
  | nil =>
    have hanswered : f.Answered [] [] ⟨[], [], [], backup⟩ := ⟨rfl, by simp, rfl, rfl, rfl⟩
    refine ⟨[], .nil w.vars, .reported rfl hanswered, ?_⟩
    intro record
    rw [List.append_nil]
    rfl
  | cons e rest ih =>
    obtain ⟨key, v⟩ := e
    cases hget : f.accessors.get? key with
    | none =>
      have hget' : f.recorded.accessors.get? key = none := by
        rw [get?_recorded, hget]
        rfl
      obtain ⟨calls, hwrites, hend, hrecorded⟩ := ih (f.afterSkip key w)
      refine ⟨calls, ?_, ?_, ?_⟩
      · rw [applyEntries_skip hget]
        exact hwrites
      · rw [applyEntries_skip hget]
        exact hend.skip hget
      · intro record
        rw [applyEntries_skip hget, applyEntries_skip hget']
        have hworld : f.recorded.afterSkip key (w.recorded record)
            = (f.afterSkip key w).recorded record := rfl
        rw [hworld, hrecorded]
    | some a =>
      have hget' : f.recorded.accessors.get? key = some (a.recorded key) := by
        rw [get?_recorded, hget]
        rfl
      have hcontains : f.accessors.contains key = true := by simp [NameMap.contains, hget]
      have hworld : ∀ record, f.recorded.afterCall key
          ((a.recorded key).set v (w.recorded record).vars) (w.recorded record)
          = (f.afterCall key (a.set v w.vars) w).recorded
            (record ++ [⟨key, v, (a.set v w.vars).1⟩]) := by
        intro record
        unfold afterCall
        simp only [Accessor.recorded, World.recorded]
        split <;> rfl
      by_cases hpanic : ∃ p, (a.set v w.vars).1 = .panic p
      · obtain ⟨p, hp⟩ := hpanic
        refine ⟨[⟨key, v, (a.set v w.vars).1⟩], ?_, ?_, ?_⟩
        · rw [applyEntries_panic hget hp, afterCall_vars]
          exact .cons v hget (.nil _)
        · rw [applyEntries_panic hget hp, hp]
          exact .panic hcontains p
        · intro record
          have hp' : ((a.recorded key).set v (w.recorded record).vars).1 = .panic p := hp
          rw [applyEntries_panic hget hp, applyEntries_panic hget' hp']
          exact congrArg (Prod.mk _) (hworld record)
      · have hregular : (a.set v w.vars).1.IsRegular := fun p hp => hpanic ⟨p, hp⟩
        obtain ⟨calls, hwrites, hend, hrecorded⟩ := ih (f.afterCall key (a.set v w.vars) w)
        rw [afterCall_vars] at hwrites
        refine ⟨⟨key, v, (a.set v w.vars).1⟩ :: calls, ?_, ?_, ?_⟩
        · rw [applyEntries_call hget hregular]
          exact .cons v hget hwrites
        · rw [applyEntries_call hget hregular]
          exact hend.call hcontains hregular
        · intro record
          have hregular' : ((a.recorded key).set v (w.recorded record).vars).1.IsRegular := hregular
          rw [applyEntries_call hget hregular, applyEntries_call hget' hregular']
          rw [hworld, hrecorded, List.append_assoc]
          rfl

/-! ## The report -/

/-- The keys of calls are those of what was applied and of what failed. -/
theorem keys_of_calls {calls : List SetCall} (h : ∀ c ∈ calls, c.answer.IsRegular) :
    ((calls.filter fun c => c.answer = .ok ()).map SetCall.key ++
        (calls.filterMap SetCall.failure?).map Prod.fst).Perm (calls.map SetCall.key) ∧
      ((calls.filterMap SetCall.failure?).map Prod.fst).Sublist (calls.map SetCall.key) := by
  induction calls with
  | nil => exact ⟨.refl _, .refl _⟩
  | cons c calls ih =>
    rw [List.forall_mem_cons] at h
    obtain ⟨hc, hcalls⟩ := h
    obtain ⟨hperm, hsub⟩ := ih hcalls
    obtain ⟨key, v, answer⟩ := c
    cases answer with
    | ok u =>
      have hfailure : SetCall.failure? ⟨key, v, .ok u⟩ = none := rfl
      rw [List.filter_cons_of_pos (by simp), List.filterMap_cons_none hfailure]
      exact ⟨hperm.cons key, hsub.cons key⟩
    | fail e =>
      have hfailure : SetCall.failure? ⟨key, v, .fail e⟩ = some (key, e) := rfl
      rw [List.filter_cons_of_neg (by simp), List.filterMap_cons_some hfailure]
      exact ⟨List.perm_middle.trans (hperm.cons key), hsub.cons_cons key⟩
    | panic p => exact absurd rfl (hc p)

/-- The report of a load, by the entries of the save file and the calls that were made. -/
structure Reports (f : SaveFile ω) (snapshot : Snapshot) (calls : List SetCall) (r : LoadReport) :
    Prop extends Answered f snapshot.entries calls r where
  /-- the calls are in the order of the keys, and so is each part of the report -/
  callsAscend : (calls.map SetCall.key).Pairwise (· < ·)
  appliedAscend : r.applied.Pairwise (· < ·)
  unknownAscend : r.unknownKeys.Pairwise (· < ·)
  failedAscend : (r.failed.map Prod.fst).Pairwise (· < ·)
  /-- no key is reported twice -/
  apart : (r.applied ++ r.failed.map Prod.fst ++ r.unknownKeys).Nodup
  all : ∀ key, key ∈ snapshot.keys ↔
    key ∈ r.applied ∨ key ∈ r.failed.map Prod.fst ∨ key ∈ r.unknownKeys

theorem Answered.reports {f : SaveFile ω} {snapshot : Snapshot} {calls : List SetCall}
    {r : LoadReport} (h : f.Answered snapshot.entries calls r) : f.Reports snapshot calls r := by
  have hascend := snapshot.keys_ascending
  have hcalls : calls.map SetCall.key = (f.registeredOf snapshot.entries).map Prod.fst := by
    rw [← h.called, List.map_map]
    rfl
  obtain ⟨hperm, hsub⟩ := keys_of_calls h.regular
  rw [← h.applied, ← h.failed] at hperm
  rw [← h.failed] at hsub
  have hcallsAscend : (calls.map SetCall.key).Pairwise (· < ·) := by
    rw [hcalls]
    exact hascend.sublist (List.filter_sublist.map Prod.fst)
  have hparts : (r.applied ++ r.failed.map Prod.fst ++ r.unknownKeys).Perm snapshot.keys := by
    refine (hperm.append_right _).trans ?_
    rw [hcalls, h.unknown, ← List.map_append]
    exact (List.filter_append_perm _ _).map Prod.fst
  refine ⟨h, hcallsAscend, ?_, ?_, hcallsAscend.sublist hsub, ?_, ?_⟩
  · rw [h.applied]
    exact hcallsAscend.sublist (List.filter_sublist.map SetCall.key)
  · rw [h.unknown]
    exact hascend.sublist (List.filter_sublist.map Prod.fst)
  · exact hparts.nodup_iff.2 (hascend.imp String.ne_of_lt)
  · intro key
    rw [← hparts.mem_iff]
    simp only [List.mem_append, or_assoc]

/-! ## Loads -/

/-- The backup that is reported of a load, and what taking it has left of the disk. -/
inductive BackupReported (f : SaveFile ω) (s : Storage) (stamp : Stamp) (d : Disk) :
    Option String → Disk → Prop where
  | none : BackupReported f s stamp d none d
  | some {target file : String} {path : Path} {data : ByteArray}
    (chosen : backupTarget s d f.name f.settings.backupMode stamp = some target)
    (source : s.content? d (canonicalName f.name) = some data)
    (place : s.locate d target = .ok (.entry path file))
    (there : (d.folder? path).isSome = true) :
    BackupReported f s stamp d (some target) (d.setFile path file data)

theorem BackupReported.leaves {f : SaveFile ω} {s : Storage} {stamp : Stamp} {d d' : Disk}
    {backup : Option String} (h : f.BackupReported s stamp d backup d') :
    BackupLeaves s f.name d d' := by
  cases h with
  | none => exact .nothing
  | some chosen source place there =>
    exact .copied (isBackupName_of_backupTarget chosen) place there source

theorem backUpForLoad_end (f : SaveFile ω) (s : Storage) (w : World ω) :
    (∃ backup w', (f.backUpForLoad s : Act ω ε _) w = (.ok backup, w') ∧ w'.vars = w.vars ∧
        f.BackupReported s w.now w.disk backup w'.disk) ∨
      ∃ p w', (f.backUpForLoad s : Act ω ε _) w = (.panic p, w') ∧ w.Alike w' := by
  have hend := takeBackup_end s f.name f.settings.backupMode w.now w
  unfold backUpForLoad
  rw [Act.get_bind]
  cases hb : (takeBackup s f.name f.settings.backupMode w.now : Act ω Failure _) w with
  | mk o w₁ =>
    rw [hb] at hend
    cases hend with
    | untaken called =>
      rw [Act.bind_of_ok (Act.attempt_of_ok hb)]
      exact Or.inl ⟨none, _, rfl, called.alike.vars, called.alike.disk ▸ .none⟩
    | taken called chosen source place there =>
      rw [Act.bind_of_ok (Act.attempt_of_ok hb)]
      exact Or.inl ⟨_, _, rfl, called.alike.vars, .some chosen source place there⟩
    | stopped called stop =>
      cases o with
      | ok taken => exact absurd rfl (stop taken)
      | fail e =>
        rw [Act.bind_of_ok (Act.attempt_of_fail hb)]
        exact Or.inl ⟨none, _, rfl, called.alike.vars, called.alike.disk ▸ .none⟩
      | panic p =>
        rw [Act.bind_apply, Act.attempt_of_panic hb]
        exact Or.inr ⟨p, _, rfl, called.alike⟩

/-- What the save file says is read, or nothing has been done to the variables. -/
theorem fetch_end (f : SaveFile ω) (s : Storage) (format : Format) (w : World ω) :
    (∃ backup snapshot data w', f.fetch s format w = (.ok (backup, snapshot), w') ∧
        s.content? w.disk (canonicalName f.name) = some data ∧ format.decode data = .ok snapshot ∧
        w'.vars = w.vars ∧ f.BackupReported s w.now w.disk backup w'.disk) ∨
      ((f.fetch s format w).1.IsStop ∧ (f.fetch s format w).2.vars = w.vars ∧
        BackupLeaves s f.name w.disk (f.fetch s format w).2.disk) := by
  unfold fetch
  rcases backUpForLoad_end (ε := Failure) f s w with
    ⟨backup, w₁, hb, hvars, hreported⟩ | ⟨p, w₁, hb, halike⟩
  · rw [Act.bind_of_ok hb]
    obtain ⟨halike, ⟨data, hdata, hheld⟩ | hstop⟩ :=
      Storage.load_cases s (canonicalName f.name) w₁
    · rw [hreported.leaves.content?_self] at hheld
      rw [Act.bind_of_ok (Prod.ext hdata rfl)]
      have hvars' := halike.vars.trans hvars
      have hdisk := halike.disk
      cases hdecode : format.decode data with
      | ok snapshot =>
        exact Or.inl ⟨backup, snapshot, data, _, rfl, hheld, hdecode, hvars', hdisk ▸ hreported⟩
      | error e => exact Or.inr ⟨Outcome.isStop_fail e, hvars', hdisk ▸ hreported.leaves⟩
    · obtain ⟨hstop', hworld⟩ := Act.bind_of_stop (fun data => do
        let snapshot ← Act.ofExcept (format.decode data)
        pure (backup, snapshot)) hstop
      refine Or.inr ⟨hstop', ?_, ?_⟩
      · rw [hworld, halike.vars, hvars]
      · rw [hworld, halike.disk]
        exact hreported.leaves
  · rw [Act.bind_apply, hb]
    exact Or.inr ⟨Outcome.isStop_panic p, halike.vars, halike.disk ▸ .nothing⟩

theorem silent_fetch (f : SaveFile ω) (s : Storage) (format : Format) :
    Act.Silent (f.fetch s format) (f.recorded.fetch s format) := by
  refine (f.silent_backUpForLoad s).bind fun backup => Act.Silent.bind ?_ fun data => ?_
  · exact s.silent_call .load (Act.silent_disk.bind fun d => Act.silent_ofExcept _)
  · exact (Act.silent_ofExcept _).bind fun snapshot => Act.silent_pure _

/-- How writing out a snapshot ends. -/
inductive WrittenOut (f : SaveFile ω) (backup : Option String) (snapshot : Snapshot)
    (calls : List SetCall) : Outcome Failure LoadOutcome → Prop where
  | loaded {r : LoadReport} (kept : r.backup = backup) (reports : f.Reports snapshot calls r) :
    WrittenOut f backup snapshot calls (.ok (.loaded r))
  | panicked {c : SetCall} {p : Panic} (last : calls.getLast? = some c)
    (answer : c.answer = .panic p)
    (front : calls.map (fun c => (c.key, c.value)) <+: f.registeredOf snapshot.entries) :
    WrittenOut f backup snapshot calls (.panic p)

theorem writeOut_end (f : SaveFile ω) (backup : Option String) (snapshot : Snapshot)
    (w : World ω) : ∃ calls,
      f.Writes calls w.vars (f.writeOut backup snapshot w).2.vars ∧
      (f.writeOut backup snapshot w).2.disk = w.disk ∧
      f.WrittenOut backup snapshot calls (f.writeOut backup snapshot w).1 ∧
      ∀ record, f.recorded.writeOut backup snapshot (w.recorded record)
        = ((f.writeOut backup snapshot w).1,
          (f.writeOut backup snapshot w).2.recorded (record ++ calls)) := by
  obtain ⟨calls, hwrites, hend, hrecorded⟩ :=
    f.applyEntries_end (ε := Failure) backup snapshot.entries w
  have hdisk := (f.applyEntries_sameButVars (ε := Failure) backup snapshot.entries w).disk
  refine ⟨calls, ?_⟩
  unfold writeOut
  simp only [Act.bind_apply, hrecorded]
  cases hw : (f.applyEntries backup snapshot.entries : Act ω Failure _) w with
  | mk o w' =>
    rw [hw] at hwrites hend hdisk
    cases hend with
    | reported kept answered => exact ⟨hwrites, hdisk, .loaded kept answered.reports, fun _ => rfl⟩
    | panicked last answer front =>
      exact ⟨hwrites, hdisk, .panicked last answer front, fun _ => rfl⟩

/-- How a load ends, with the calls that it has made and the world behind it. -/
inductive LoadEnd (f : SaveFile ω) (s : Storage) (format : Format) (w : World ω) :
    List SetCall → Outcome Failure LoadOutcome → World ω → Prop where
  /-- there is no save file, and nothing has been done -/
  | nothingToLoad {w' : World ω} (absent : s.contains w.disk (canonicalName f.name) = false)
    (alike : w.Alike w') : LoadEnd f s format w [] (.ok .nothingToLoad) w'
  /-- the save file was read, and what it says was written key by key -/
  | loaded {data : ByteArray} {snapshot : Snapshot} {calls : List SetCall} {r : LoadReport}
    {w' : World ω} (source : s.content? w.disk (canonicalName f.name) = some data)
    (decoded : format.decode data = .ok snapshot) (writes : f.Writes calls w.vars w'.vars)
    (reports : f.Reports snapshot calls r)
    (backup : f.BackupReported s w.called.now w.disk r.backup w'.disk) :
    LoadEnd f s format w calls (.ok (.loaded r)) w'
  /-- the load stopped before anything was written -/
  | stopped {o : Outcome Failure LoadOutcome} {w' : World ω} (stop : o.IsStop)
    (unwritten : w'.vars = w.vars) (backup : BackupLeaves s f.name w.disk w'.disk) :
    LoadEnd f s format w [] o w'
  /-- the last of the calls panicked -/
  | panicked {data : ByteArray} {snapshot : Snapshot} {calls : List SetCall} {c : SetCall}
    {p : Panic} {w' : World ω} (source : s.content? w.disk (canonicalName f.name) = some data)
    (decoded : format.decode data = .ok snapshot) (writes : f.Writes calls w.vars w'.vars)
    (last : calls.getLast? = some c) (answer : c.answer = .panic p)
    (front : calls.map (fun c => (c.key, c.value)) <+: f.registeredOf snapshot.entries)
    (backup : BackupLeaves s f.name w.disk w'.disk) :
    LoadEnd f s format w calls (.panic p) w'

theorem LoadEnd.leaves {f : SaveFile ω} {s : Storage} {format : Format} {w w' : World ω}
    {calls : List SetCall} {o : Outcome Failure LoadOutcome}
    (h : f.LoadEnd s format w calls o w') : BackupLeaves s f.name w.disk w'.disk := by
  cases h with
  | nothingToLoad _ alike => exact alike.disk ▸ .nothing
  | loaded _ _ _ _ backup => exact backup.leaves
  | stopped _ _ backup => exact backup
  | panicked _ _ _ _ _ _ backup => exact backup

/-- A load that is told by the calls it makes. -/
structure LoadsByKey (f : SaveFile ω) (s : Storage) (format : Format) (w : World ω)
    (calls : List SetCall) : Prop where
  ends : f.LoadEnd s format w calls (f.load s format w).1 (f.load s format w).2
  /-- with accessors on record the load is the same, and these are the calls on the record -/
  onRecord : ∀ record, f.recorded.load s format (w.recorded record)
    = ((f.load s format w).1, (f.load s format w).2.recorded (record ++ calls))
  /-- the save file holds what it held -/
  kept : s.content? (f.load s format w).2.disk (canonicalName f.name)
    = s.content? w.disk (canonicalName f.name)
  /-- only a panic of an accessor or of the storage is one of the load -/
  regular : f.WritesRegularly → w.NoPanicPlanned → (f.load s format w).1.IsRegular

/-- Fetching and writing out are told by the calls that are made, at the end and on record. -/
theorem exists_calls_of_fetch {f : SaveFile ω} {s : Storage} {format : Format} {w : World ω}
    (hload : f.load s format w
      = (f.fetch s format >>= fun x => f.writeOut x.1 x.2 : Act ω Failure _) w.called)
    (hload' : ∀ record, f.recorded.load s format (w.recorded record)
      = (f.recorded.fetch s format >>= fun x => f.recorded.writeOut x.1 x.2)
        (w.called.recorded record)) :
    ∃ calls, f.LoadEnd s format w calls (f.load s format w).1 (f.load s format w).2 ∧
      ∀ record, f.recorded.load s format (w.recorded record)
        = ((f.load s format w).1, (f.load s format w).2.recorded (record ++ calls)) := by
  have hsilent := f.silent_fetch s format w.called
  rcases f.fetch_end s format w.called with
    ⟨backup, snapshot, data, w₁, hfetch, hsource, hdecoded, hvars, hbackup⟩ |
    ⟨hstop, hvars, hbackup⟩
  · obtain ⟨calls, hwrites, hdisk, hout, hrecorded⟩ := f.writeOut_end backup snapshot w₁
    rw [Act.bind_of_ok hfetch] at hload
    rw [hvars] at hwrites
    rw [← hdisk] at hbackup
    refine ⟨calls, ?_, ?_⟩
    · rw [hload]
      generalize f.writeOut backup snapshot w₁ = out at hwrites hbackup hout
      obtain ⟨o, w'⟩ := out
      cases hout with
      | loaded kept reports =>
        exact .loaded hsource hdecoded hwrites reports (kept ▸ hbackup)
      | panicked last answer front =>
        exact .panicked hsource hdecoded hwrites last answer front hbackup.leaves
    · intro record
      have hfetch' := hsilent record
      rw [hfetch] at hfetch'
      rw [hload', hload, Act.bind_of_ok hfetch']
      exact hrecorded record
  · obtain ⟨hstop', hworld⟩ := Act.bind_of_stop (fun x => f.writeOut x.1 x.2) hstop
    refine ⟨[], ?_, ?_⟩
    · rw [hload]
      refine .stopped hstop' ?_ ?_
      · rw [hworld]
        exact hvars
      · rw [hworld]
        exact hbackup
    · intro record
      rw [hload', hload, List.append_nil, Act.bind_apply, Act.bind_apply, hsilent record]
      generalize f.fetch s format w.called = fetched at hstop
      obtain ⟨o, w'⟩ := fetched
      cases o with
      | ok x => exact absurd rfl (hstop x)
      | fail e => rfl
      | panic p => rfl

/--
A load writes each key of the save file that has an accessor once, whatever the other calls answer,
and reports each key by what became of it.
-/
theorem load_byKey (f : SaveFile ω) (s : Storage) (format : Format) (w : World ω) :
    ∃ calls, f.LoadsByKey s format w calls := by
  suffices h : ∃ calls, f.LoadEnd s format w calls (f.load s format w).1 (f.load s format w).2 ∧
      ∀ record, f.recorded.load s format (w.recorded record)
        = ((f.load s format w).1, (f.load s format w).2.recorded (record ++ calls)) by
    obtain ⟨calls, hend, hrecord⟩ := h
    exact ⟨calls, hend, hrecord, hend.leaves.content?_self,
      fun hwrites hplan => (hwrites.load s format w hplan).1⟩
  have hprobe := s.silent_probe (ε := Failure) (canonicalName f.name) w
  cases f.load_probed s format w with
  | absent missing answered run told =>
    refine ⟨[], ?_, ?_⟩
    · rw [run, told]
      exact .nothingToLoad missing ⟨⟨⟨rfl, rfl, rfl, rfl⟩, rfl⟩, rfl⟩
    · intro record
      have hanswered := hprobe record
      rw [answered] at hanswered
      rw [run, told, load_eq, List.append_nil]
      exact Act.bind_of_ok hanswered
  | @struck p panicked run =>
    refine ⟨[], ?_, ?_⟩
    · rw [run]
      exact .stopped (Outcome.isStop_panic p) rfl .nothing
    · intro record
      have hpanicked := hprobe record
      rw [panicked] at hpanicked
      rw [run, load_eq, List.append_nil, Act.bind_apply]
      have hname : f.recorded.name = f.name := rfl
      rw [hname, hpanicked]
  | there _ answered hload =>
    refine exists_calls_of_fetch hload fun record => ?_
    have hanswered := hprobe record
    rw [answered] at hanswered
    rw [load_eq]
    exact Act.bind_of_ok hanswered

end SaveFile

end Keepsake
