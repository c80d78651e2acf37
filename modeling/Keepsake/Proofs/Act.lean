import Keepsake.World
/-!
# How operations on the world go on

An operation that answers is followed by the next one in the world that it left; one that fails or
panics is the last. Operations that only log or count leave everything else of the world as it
was: such worlds are `Alike`. What a piece of a program does to the disk can then be told without
its log events.
-/

namespace Keepsake

variable {ω ε δ α β : Type}

/-! ## Outcomes -/

/-- Whether an operation ended without an answer. -/
def Outcome.IsStop (o : Outcome ε α) : Prop := ∀ a, o ≠ .ok a

/-- An operation whose outcome is an answer or a failure. -/
def Outcome.IsRegular (o : Outcome ε α) : Prop := ∀ p, o ≠ .panic p

theorem Outcome.isStop_fail (e : ε) : (Outcome.fail e : Outcome ε α).IsStop := by
  intro a h
  cases h

theorem Outcome.isStop_panic (p : Panic) : (Outcome.panic p : Outcome ε α).IsStop := by
  intro a h
  cases h

theorem Outcome.IsStop.map {o : Outcome ε α} (h : o.IsStop) (f : α → β) : (o.map f).IsStop := by
  cases o with
  | ok a => exact absurd rfl (h a)
  | fail e => exact isStop_fail e
  | panic p => exact isStop_panic p

theorem Outcome.map_eq_ok {o : Outcome ε α} {f : α → β} {b : β} (h : o.map f = .ok b) :
    ∃ a, o = .ok a ∧ b = f a := by
  cases o with
  | ok a =>
    cases h
    exact ⟨a, rfl, rfl⟩
  | fail e => cases h
  | panic p => cases h

/-- A sequence that gives an answer is one whose parts both do. -/
theorem except_bind_eq_ok {x : Except ε α} {f : α → Except ε β} {b : β} (h : (x >>= f) = .ok b) :
    ∃ a, x = .ok a ∧ f a = .ok b := by
  cases x with
  | ok a => exact ⟨a, rfl, h⟩
  | error e => cases h

theorem except_eq_ok_of_isOk {x : Except ε Unit} (h : x.isOk = true) : x = .ok () := by
  cases x with
  | ok u => rfl
  | error e => cases h

theorem except_eq_ok_of_toOption {x : Except ε α} {a : α} (h : x.toOption = some a) :
    x = .ok a := by
  cases x with
  | ok b =>
    cases h
    rfl
  | error e => cases h

/-! ## Worlds that differ in part

No operation sets the clock, nor what strikes the calls to come. `SameButDisk` is what storages keep
beside that, `SameButVars` what variables keep, and `Alike` what calls, log and metrics keep.
-/

/-- The same setting of the clock, and the same plan of what strikes calls. -/
structure World.SameSetting (w w' : World ω) : Prop where
  clock : w'.clock = w.clock
  drift : w'.drift = w.drift
  plan : w'.plan = w.plan
  probes : w'.probes = w.probes

/-- The same variables, clock and faults to come. -/
structure World.SameButDisk (w w' : World ω) : Prop extends World.SameSetting w w' where
  vars : w'.vars = w.vars

/-- The same disk, clock and faults to come. -/
structure World.SameButVars (w w' : World ω) : Prop extends World.SameSetting w w' where
  disk : w'.disk = w.disk

/-- The same but for what was logged and counted. -/
structure World.Alike (w w' : World ω) : Prop extends World.SameButDisk w w' where
  disk : w'.disk = w.disk

/-- Events may have been logged, and nothing else has happened. -/
def World.OnlyLogged (w w' : World ω) : Prop := ∃ log, w' = { w with log }

/-- Something may have been logged and counted, and nothing else has happened. -/
def World.OnlyRecorded (w w' : World ω) : Prop := ∃ log metrics, w' = { w with log, metrics }

/-- Storages may have been called, and nothing has come of it. -/
def World.OnlyCalled (w w' : World ω) : Prop := ∃ more, w' = { w with calls := w.calls + more }

namespace World

theorem SameSetting.refl (w : World ω) : SameSetting w w := ⟨rfl, rfl, rfl, rfl⟩

theorem SameSetting.trans {w₁ w₂ w₃ : World ω} (h : SameSetting w₁ w₂) (h' : SameSetting w₂ w₃) :
    SameSetting w₁ w₃ :=
  ⟨h'.clock.trans h.clock, h'.drift.trans h.drift, h'.plan.trans h.plan, h'.probes.trans h.probes⟩

theorem SameButDisk.trans {w₁ w₂ w₃ : World ω} (h : SameButDisk w₁ w₂) (h' : SameButDisk w₂ w₃) :
    SameButDisk w₁ w₃ :=
  ⟨h.toSameSetting.trans h'.toSameSetting, h'.vars.trans h.vars⟩

theorem SameButVars.trans {w₁ w₂ w₃ : World ω} (h : SameButVars w₁ w₂) (h' : SameButVars w₂ w₃) :
    SameButVars w₁ w₃ :=
  ⟨h.toSameSetting.trans h'.toSameSetting, h'.disk.trans h.disk⟩

theorem Alike.refl (w : World ω) : Alike w w := ⟨⟨.refl w, rfl⟩, rfl⟩

theorem Alike.trans {w₁ w₂ w₃ : World ω} (h : Alike w₁ w₂) (h' : Alike w₂ w₃) : Alike w₁ w₃ :=
  ⟨h.toSameButDisk.trans h'.toSameButDisk, h'.disk.trans h.disk⟩

theorem Alike.sameButVars {w w' : World ω} (h : Alike w w') : SameButVars w w' :=
  ⟨h.toSameSetting, h.disk⟩

theorem OnlyLogged.refl (w : World ω) : w.OnlyLogged w := ⟨w.log, rfl⟩

theorem OnlyLogged.trans {w₁ w₂ w₃ : World ω} (h : w₁.OnlyLogged w₂) (h' : w₂.OnlyLogged w₃) :
    w₁.OnlyLogged w₃ := by
  obtain ⟨log, rfl⟩ := h
  obtain ⟨log', rfl⟩ := h'
  exact ⟨log', rfl⟩

theorem OnlyLogged.alike {w w' : World ω} (h : w.OnlyLogged w') : w.Alike w' := by
  obtain ⟨log, rfl⟩ := h
  exact ⟨⟨⟨rfl, rfl, rfl, rfl⟩, rfl⟩, rfl⟩

theorem OnlyRecorded.alike {w w' : World ω} (h : w.OnlyRecorded w') : w.Alike w' := by
  obtain ⟨log, metrics, rfl⟩ := h
  exact ⟨⟨⟨rfl, rfl, rfl, rfl⟩, rfl⟩, rfl⟩

theorem OnlyCalled.refl (w : World ω) : w.OnlyCalled w := ⟨0, rfl⟩

theorem OnlyCalled.trans {w₁ w₂ w₃ : World ω} (h : w₁.OnlyCalled w₂) (h' : w₂.OnlyCalled w₃) :
    w₁.OnlyCalled w₃ := by
  obtain ⟨more, rfl⟩ := h
  obtain ⟨more', rfl⟩ := h'
  exact ⟨more + more', by rw [Nat.add_assoc]⟩

theorem OnlyCalled.alike {w w' : World ω} (h : w.OnlyCalled w') : w.Alike w' := by
  obtain ⟨more, rfl⟩ := h
  exact ⟨⟨⟨rfl, rfl, rfl, rfl⟩, rfl⟩, rfl⟩

theorem onlyCalled_called (w : World ω) : w.OnlyCalled w.called := ⟨1, rfl⟩

theorem alike_called (w : World ω) : Alike w w.called := w.onlyCalled_called.alike

theorem sameButDisk_disk (w : World ω) (disk : Disk) : w.SameButDisk { w with disk } :=
  ⟨⟨rfl, rfl, rfl, rfl⟩, rfl⟩

@[simp]
theorem called_disk (w : World ω) : w.called.disk = w.disk := rfl

end World

namespace Act

/-! ## Sequences -/

@[simp]
theorem pure_apply (a : α) (w : World ω) : (Pure.pure a : Act ω ε α) w = (.ok a, w) := rfl

theorem bind_apply (x : Act ω ε α) (f : α → Act ω ε β) (w : World ω) :
    (x >>= f) w = match x w with
      | (.ok a, w) => f a w
      | (.fail e, w) => (.fail e, w)
      | (.panic p, w) => (.panic p, w) := rfl

theorem bind_of_ok {x : Act ω ε α} {f : α → Act ω ε β} {w w' : World ω} {a : α}
    (h : x w = (.ok a, w')) : (x >>= f) w = f a w' := by
  rw [bind_apply, h]

/-- A sequence that answers is one whose parts both do. -/
theorem bind_eq_ok {x : Act ω ε α} {f : α → Act ω ε β} {w w'' : World ω} {b : β}
    (h : (x >>= f) w = (.ok b, w'')) : ∃ a w', x w = (.ok a, w') ∧ f a w' = (.ok b, w'') := by
  rw [bind_apply] at h
  split at h
  · next a w' hx => exact ⟨a, w', hx, h⟩
  · cases h
  · cases h

/-- A sequence whose first part stops does no more. -/
theorem bind_of_stop {x : Act ω ε α} {w : World ω} (f : α → Act ω ε β) (h : (x w).1.IsStop) :
    ((x >>= f) w).1.IsStop ∧ ((x >>= f) w).2 = (x w).2 := by
  rw [bind_apply]
  split
  · next a w' hx => exact absurd (congrArg Prod.fst hx) (h a)
  · next e w' hx => exact ⟨Outcome.isStop_fail e, by rw [hx]⟩
  · next p w' hx => exact ⟨Outcome.isStop_panic p, by rw [hx]⟩

theorem bind_of_eq_stop {x : Act ω ε α} {w w' : World ω} {o : Outcome ε α}
    (f : α → Act ω ε β) (h : x w = (o, w')) (hstop : o.IsStop) :
    ((x >>= f) w).1.IsStop ∧ ((x >>= f) w).2 = w' := by
  have hbind := bind_of_stop (x := x) (w := w) f (by rwa [h])
  rwa [h] at hbind

@[simp]
theorem pure_bind (a : α) (f : α → Act ω ε β) : (Pure.pure a >>= f : Act ω ε β) = f a := rfl

theorem bind_assoc {γ : Type} (x : Act ω ε α) (f : α → Act ω ε β) (g : β → Act ω ε γ) :
    (x >>= f) >>= g = x >>= fun a => f a >>= g := by
  funext w
  simp only [bind_apply]
  cases x w with
  | mk o w' => cases o <;> rfl

/-- Changing the answer changes only the answer. -/
theorem bind_pure_apply (x : Act ω ε α) (g : α → β) (w : World ω) :
    (x >>= fun a => (Pure.pure (g a) : Act ω ε β)) w = ((x w).1.map g, (x w).2) := by
  rw [bind_apply]
  cases x w with
  | mk o w' => cases o <;> rfl

@[simp]
theorem bind_pure_snd (x : Act ω ε α) (g : α → β) (w : World ω) :
    ((x >>= fun a => (Pure.pure (g a) : Act ω ε β)) w).2 = (x w).2 := by
  rw [bind_pure_apply]

/-! ## The simple operations -/

@[simp]
theorem get_bind (g : World ω → α) (f : α → Act ω ε β) (w : World ω) :
    (Act.get g >>= f) w = f (g w) w := rfl

@[simp]
theorem ofExcept_ok_bind (a : α) (f : α → Act ω ε β) (w : World ω) :
    (Act.ofExcept (.ok a) >>= f) w = f a w := rfl

theorem ofOutcome_apply (o : Outcome ε α) (w : World ω) : Act.ofOutcome o w = (o, w) := rfl

@[simp]
theorem ofOutcome_ok_bind (a : α) (f : α → Act ω ε β) (w : World ω) :
    (Act.ofOutcome (.ok a) >>= f) w = f a w := rfl

@[simp]
theorem settle_bind (x : Act ω ε α) (f : Outcome ε α → Act ω δ β) (w : World ω) :
    (Act.settle x >>= f) w = f (x w).1 (x w).2 := rfl

@[simp]
theorem onVars_apply (g : ω → Outcome ε α × ω) (w : World ω) :
    Act.onVars g w = ((g w.vars).1, { w with vars := (g w.vars).2 }) := rfl

/-- An event changes only the log. -/
theorem tell_apply (source : LogSource) (level : LogLevel) (message : String)
    (fields : List (String × LogValue)) (w : World ω) :
    ∃ w', (Act.tell source level message fields : Act ω ε Unit) w = (.ok (), w') ∧ w.Alike w' :=
  ⟨_, rfl, World.OnlyLogged.alike ⟨_, rfl⟩⟩

theorem tell_onlyLogged (source : LogSource) (level : LogLevel) (message : String)
    (fields : List (String × LogValue)) (w : World ω) :
    ∃ w', (Act.tell source level message fields : Act ω ε Unit) w = (.ok (), w') ∧
      w.OnlyLogged w' :=
  ⟨_, rfl, _, rfl⟩

/-- Counting changes only the metrics. -/
theorem count_apply (g : Metrics → Metrics) (w : World ω) :
    ∃ w', (Act.count g : Act ω ε Unit) w = (.ok (), w') ∧ w.Alike w' :=
  ⟨_, rfl, World.OnlyRecorded.alike ⟨_, _, rfl⟩⟩

theorem attempt_of_ok {x : Act ω ε α} {w w' : World ω} {a : α} (h : x w = (.ok a, w')) :
    (Act.attempt x : Act ω δ (Except ε α)) w = (.ok (.ok a), w') := by
  unfold Act.attempt
  rw [h]

theorem attempt_of_fail {x : Act ω ε α} {w w' : World ω} {e : ε} (h : x w = (.fail e, w')) :
    (Act.attempt x : Act ω δ (Except ε α)) w = (.ok (.error e), w') := by
  unfold Act.attempt
  rw [h]

theorem attempt_of_panic {x : Act ω ε α} {w w' : World ω} {p : Panic} (h : x w = (.panic p, w')) :
    (Act.attempt x : Act ω δ (Except ε α)) w = (.panic p, w') := by
  unfold Act.attempt
  rw [h]

/-- What an attempt answers, unless a panic stops it. -/
theorem attempt_cases (x : Act ω ε α) (w : World ω) :
    (∃ r, (Act.attempt x : Act ω δ (Except ε α)) w = (.ok r, (x w).2) ∧
        ∀ a, r = .ok a ↔ (x w).1 = .ok a) ∨
      (∃ p, (Act.attempt x : Act ω δ (Except ε α)) w = (.panic p, (x w).2) ∧ (x w).1.IsStop) := by
  cases hx : x w with
  | mk o w' =>
    cases o with
    | ok a => exact Or.inl ⟨.ok a, attempt_of_ok hx, by simp⟩
    | fail e => exact Or.inl ⟨.error e, attempt_of_fail hx, by simp⟩
    | panic p => exact Or.inr ⟨p, attempt_of_panic hx, Outcome.isStop_panic p⟩

/-! ## Cleaning up -/

theorem cleaning_of_ok {cleanup : Act ω δ β} {x : Act ω ε α} {w w' : World ω} {a : α}
    (h : x w = (.ok a, w')) : Act.cleaning cleanup x w = (.ok a, w') := by
  unfold Act.cleaning
  rw [h]

/-- Behind an operation that gives no answer is what the cleaning up left. -/
theorem cleaning_of_stop {cleanup : Act ω δ β} {x : Act ω ε α} {w w' : World ω} {o : Outcome ε α}
    (h : x w = (o, w')) (hstop : o.IsStop) :
    Act.cleaning cleanup x w = (o, (cleanup w').2) := by
  unfold Act.cleaning
  rw [h]
  cases o with
  | ok a => exact absurd rfl (hstop a)
  | fail e => rfl
  | panic p => rfl

/-! ## What operations keep

A frame is what a whole program leaves alone because each of its parts does, however each of them
ends.
-/

/-- A relation from the world before an operation to the one behind it; log and metrics are free. -/
structure Frame (ω : Type) where
  keeps : World ω → World ω → Prop
  alike : ∀ {w w' : World ω}, w.Alike w' → keeps w w'
  trans : ∀ {w₁ w₂ w₃ : World ω}, keeps w₁ w₂ → keeps w₂ w₃ → keeps w₁ w₃

theorem Frame.refl (F : Frame ω) (w : World ω) : F.keeps w w := F.alike (World.Alike.refl w)

/-- Only the variables are free. -/
def Frame.butVars : Frame ω := ⟨World.SameButVars, World.Alike.sameButVars, World.SameButVars.trans⟩

/-- A part of the variables is kept. -/
def Frame.vars {β : Type} (part : ω → β) : Frame ω where
  keeps w w' := part w'.vars = part w.vars
  alike h := congrArg part h.vars
  trans h h' := h'.trans h

/-- What two frames keep. -/
def Frame.both (F G : Frame ω) : Frame ω where
  keeps w w' := F.keeps w w' ∧ G.keeps w w'
  alike h := ⟨F.alike h, G.alike h⟩
  trans h h' := ⟨F.trans h.1 h'.1, G.trans h.2 h'.2⟩

/-- An operation that stays in a frame, whatever it comes to. -/
def Within (F : Frame ω) (x : Act ω ε α) : Prop := ∀ w, F.keeps w (x w).2

section Within

variable {F G : Frame ω}

theorem Within.mono {x : Act ω ε α} (h : Within F x)
    (hFG : ∀ w w', F.keeps w w' → G.keeps w w') : Within G x := fun w => hFG w _ (h w)

theorem Within.both {x : Act ω ε α} (h : Within F x) (h' : Within G x) : Within (F.both G) x :=
  fun w => ⟨h w, h' w⟩

theorem within_pure (a : α) : Within F (Pure.pure a : Act ω ε α) := F.refl

theorem within_fail (e : ε) : Within F (Act.fail e : Act ω ε α) := F.refl

theorem within_panic (p : Panic) : Within F (fun w => (.panic p, w) : Act ω ε α) := F.refl

theorem within_get (g : World ω → α) : Within F (Act.get g : Act ω ε α) := F.refl

theorem within_ofExcept (x : Except ε α) : Within F (Act.ofExcept x : Act ω ε α) := F.refl

theorem within_tell (source : LogSource) (level : LogLevel) (message : String)
    (fields : List (String × LogValue)) :
    Within F (Act.tell source level message fields : Act ω ε Unit) := fun _ =>
  F.alike (World.OnlyLogged.alike ⟨_, rfl⟩)

theorem within_count (g : Metrics → Metrics) : Within F (Act.count g : Act ω ε Unit) := fun _ =>
  F.alike (World.OnlyRecorded.alike ⟨_, _, rfl⟩)

theorem within_onVars (g : ω → Outcome ε α × ω) : Within Frame.butVars (Act.onVars g) := fun _ =>
  ⟨⟨rfl, rfl, rfl, rfl⟩, rfl⟩

/-- The second part of a sequence starts from what the first one answered. -/
theorem Within.bind_of_ok {x : Act ω ε α} {f : α → Act ω ε β} (hx : Within F x)
    (hf : ∀ w a w', x w = (.ok a, w') → F.keeps w' (f a w').2) : Within F (x >>= f) := by
  intro w
  have h := hx w
  rw [bind_apply]
  split
  · next a w' heq =>
    rw [heq] at h
    exact F.trans h (hf w a w' heq)
  · next e w' heq => rwa [heq] at h
  · next p w' heq => rwa [heq] at h

theorem Within.bind {x : Act ω ε α} {f : α → Act ω ε β} (hx : Within F x)
    (hf : ∀ a, Within F (f a)) : Within F (x >>= f) :=
  hx.bind_of_ok fun _ a w' _ => hf a w'

theorem Within.settle {x : Act ω ε α} (h : Within F x) :
    Within F (Act.settle x : Act ω δ (Outcome ε α)) := h

theorem Within.attempt {x : Act ω ε α} (h : Within F x) :
    Within F (Act.attempt x : Act ω δ (Except ε α)) := by
  intro w
  rcases attempt_cases (δ := δ) x w with ⟨r, heq, -⟩ | ⟨p, heq, -⟩ <;>
    · rw [heq]
      exact h w

end Within

end Act

end Keepsake
