import Keepsake.Proofs.Turn
/-!
# What a disabled engine does

Ticks, flushes, loads of all save-files and workers look at the switch of the engine before
anything else, and a load by name does not. So a disabled engine changes the log at most, unless a
save-file is loaded by name: that load asks for the save file, and where there is one it backs it
up, reads it and writes the variables, as it does in an enabled engine.
-/

namespace Keepsake

variable {ω : Type}

/-- Whether an operation is one of the engine, and not done to it or beside it. -/
def Operation.isOwn : Operation ω → Bool
  | .register _ => false
  | .meanwhile .. => false
  | _ => true

/-- Events may have been logged and storages called, and nothing else has happened. -/
def World.OnlyAsked (w w' : World ω) : Prop :=
  ∃ log more, w' = { w with log, calls := w.calls + more }

namespace World

theorem OnlyLogged.asked {w w' : World ω} (h : w.OnlyLogged w') : w.OnlyAsked w' := by
  obtain ⟨log, rfl⟩ := h
  exact ⟨log, 0, rfl⟩

theorem OnlyAsked.refl (w : World ω) : w.OnlyAsked w := (OnlyLogged.refl w).asked

theorem OnlyAsked.trans {w₁ w₂ w₃ : World ω} (h : w₁.OnlyAsked w₂) (h' : w₂.OnlyAsked w₃) :
    w₁.OnlyAsked w₃ := by
  obtain ⟨log, more, rfl⟩ := h
  obtain ⟨log', more', rfl⟩ := h'
  exact ⟨log', more + more', by rw [Nat.add_assoc]⟩

theorem OnlyAsked.disk {w w' : World ω} (h : w.OnlyAsked w') : w'.disk = w.disk := by
  obtain ⟨log, more, rfl⟩ := h
  rfl

end World

namespace Engine

/-- Whether an operation is a load by name that finds a save file. -/
def finds (e : Engine ω) (d : Disk) : Operation ω → Bool
  | .load file => (e.registry.files.get? file).any fun f =>
      e.storage.contains d (canonicalName f.name)
  | _ => false

variable {e : Engine ω} {w : World ω}

/-- A load that finds no save file asks for it and says so, and that is all. -/
theorem load_onlyAsked {file : String} (h : e.finds w.disk (.load file) = false) :
    w.OnlyAsked (e.load file w).2 := by
  unfold load
  cases hf : e.registry.files.get? file with
  | none => exact .refl w
  | some f =>
    have habsent : e.storage.contains w.disk (canonicalName f.name) = false := by
      simpa [finds, hf] using h
    show w.OnlyAsked (f.load e.storage e.format w).2
    cases f.load_probed e.storage e.format w with
    | there found =>
      rw [habsent] at found
      cases found
    | absent _ _ run told =>
      rw [run, told]
      exact ⟨_, 1, rfl⟩
    | struck _ run =>
      rw [run]
      exact ⟨w.log, 1, rfl⟩

theorem loadAll_of_disabled (hoff : e.isEnabled = false) (w : World ω) :
    w.OnlyLogged ((e.loadAll : Act ω Failure _) w).2 := by
  obtain ⟨w', htell, hlogged⟩ := Act.tell_onlyLogged (ε := Failure) .engine .debug
    "autosave disabled, skipping load" [] w
  rw [loadAll, if_neg (by simp [hoff]), Act.bind_of_ok htell]
  exact hlogged

theorem work_of_disabled (hoff : e.isEnabled = false) (first : Nat) (later : List Nat)
    (stop : Nat) (w : World ω) :
    ∃ w', (e.work (first :: later) stop : Act ω Failure _) w = (.ok e, w') ∧ w.OnlyLogged w' := by
  obtain ⟨w', htell, hlogged⟩ := Act.tell_onlyLogged (ε := Failure) .worker .info
    "autosave disabled, worker exiting" [] w
  refine ⟨w', ?_, hlogged⟩
  rw [work, if_neg (by simp [hoff]), Act.bind_of_ok htell]
  rfl

/-- No operation changes a disabled engine, and only loads by name change more than the log. -/
theorem perform_of_disabled (hoff : e.isEnabled = false) {op : Operation ω}
    (hop : op.isOwn = true) :
    (e.perform w op).1 = e ∧
      ((∃ file, op = .load file ∧ (e.perform w op).2 = (e.load file w).2) ∨
        w.OnlyLogged (e.perform w op).2) := by
  -- a tick and a flush are rounds, which a disabled engine does not make
  have round : ∀ kind now,
      e.behind ((Prod.snd <$> e.round kind now : Act ω Failure _) w) = (e, w) := by
    intro kind now
    have hmap : (Prod.snd <$> e.round kind now : Act ω Failure _) w = (.ok e, w) :=
      Act.bind_of_ok (round_of_disabled hoff kind now w)
    rw [hmap]
    rfl
  cases op with
  | register x => cases hop
  | meanwhile vars clock log => cases hop
  | tick now =>
    have htick : e.perform w (.tick now) = (e, w) := round .tick now
    rw [htick]
    exact ⟨rfl, Or.inr (.refl w)⟩
  | flush now =>
    have hflush : e.perform w (.flush now) = (e, w) := round .flush now
    rw [hflush]
    exact ⟨rfl, Or.inr (.refl w)⟩
  | load file => exact ⟨rfl, Or.inl ⟨file, rfl, rfl⟩⟩
  | loadAll => exact ⟨rfl, Or.inr (loadAll_of_disabled hoff w)⟩
  | work first later stop =>
    obtain ⟨w', hwork, hlogged⟩ := work_of_disabled hoff first later stop w
    have hperform : e.perform w (.work first later stop) = (e, w') := congrArg e.behind hwork
    rw [hperform]
    exact ⟨rfl, Or.inr hlogged⟩

variable {ops : List (Operation ω)}

/-- What logging and the loads by name of a run keep, the run keeps. -/
theorem performAll_keeps (hoff : e.isEnabled = false) (hops : ∀ op ∈ ops, op.isOwn = true)
    {R : World ω → World ω → Prop} (hlogged : ∀ {w w'}, w.OnlyLogged w' → R w w')
    (htrans : ∀ {w₁ w₂ w₃}, R w₁ w₂ → R w₂ w₃ → R w₁ w₃)
    (hloads : ∀ file, .load file ∈ ops → ∀ w', R w w' → R w' (e.load file w').2) :
    (e.performAll w ops).1 = e ∧ R w (e.performAll w ops).2 := by
  induction ops generalizing w with
  | nil => exact ⟨rfl, hlogged (.refl w)⟩
  | cons op rest ih =>
    rw [List.forall_mem_cons] at hops
    obtain ⟨hsame, hworld⟩ := perform_of_disabled (w := w) hoff hops.1
    have hstep : R w (e.perform w op).2 := by
      rcases hworld with ⟨file, rfl, hload⟩ | h
      · rw [hload]
        exact hloads file (List.mem_cons_self ..) w (hlogged (.refl w))
      · exact hlogged h
    obtain ⟨hrest, hkept⟩ := ih hops.2 fun file hfile w' h =>
      hloads file (List.mem_cons_of_mem _ hfile) w' (htrans hstep h)
    rw [performAll, hsame]
    exact ⟨hrest, htrans hstep hkept⟩

/--
A disabled engine is the same engine behind every run, so that no save-file remembers another save.
Only loads by name do anything but log: what each of them leaves alone the run leaves alone, among
it all save files. Where none of them finds a save file, the run does nothing but log and ask for
the save files.
-/
theorem performAll_of_disabled (hoff : e.isEnabled = false) (hops : ∀ op ∈ ops, op.isOwn = true)
    (w : World ω) :
    (e.performAll w ops).1 = e ∧
      ((∀ file, .load file ∉ ops) → w.OnlyLogged (e.performAll w ops).2) ∧
      (∀ F : Act.Frame ω, (∀ file, .load file ∈ ops → Act.Within F (e.load file)) →
        F.keeps w (e.performAll w ops).2) ∧
      (e.WellNamed → e.storage.SameSaves w.disk (e.performAll w ops).2.disk) ∧
      ((∀ op ∈ ops, e.finds w.disk op = false) → w.OnlyAsked (e.performAll w ops).2) := by
  have kept (F : Act.Frame ω) (hF : ∀ file, .load file ∈ ops → Act.Within F (e.load file)) :=
    performAll_keeps (w := w) hoff hops (fun h => F.alike h.alike) F.trans
      fun file hfile w' _ => hF file hfile w'
  refine ⟨?_, fun hnone => ?_, fun F hF => (kept F hF).2, fun h => ?_, fun hfinds => ?_⟩
  · exact (kept (.vars fun _ => ()) fun _ _ _ => rfl).1
  · exact (performAll_keeps hoff hops id .trans fun file hfile => absurd hfile (hnone file)).2
  · have hnames : ∀ x ∈ e.registry.files.entries, '/' ∉ x.2.name.toList := fun x hx =>
      (h.of_mem hx).2
    exact (kept _ fun file _ => e.within_load file hnames).2.1
  · refine (performAll_keeps hoff hops World.OnlyLogged.asked .trans fun file hfile w' h => ?_).2
    -- the disk is still the one that the run began with, so there is nothing to be found either
    exact load_onlyAsked (h.disk ▸ hfinds _ hfile)

end Engine

namespace Sample

/-- A registry that is switched off. -/
def dormantRegistry : Registry Cell :=
  ⟨{ settings with files := [], enabled := false },
    NameMap.empty.insert "auto" (SaveFile.ofSettings (.named "auto"))⟩

/-- An engine over one cell that is switched off. -/
def switchedOff : Engine Cell :=
  ⟨dormantRegistry.registerAll [.accessor none "greeting" Cell.accessor], .plain "/"⟩

/-- What can be asked of a disabled engine, and a load of a save-file that is not there. -/
def requests : List (Operation Cell) :=
  [.tick 7, .loadAll, .load "other", .work 8 [9] 10, .flush 11]

end Sample

/-- A row of requests to an engine that is switched off leaves the events of its refusals. -/
theorem Engine.performAll_of_disabled_sample :
    Sample.switchedOff.isEnabled = false ∧ (∀ op ∈ Sample.requests, op.isOwn = true) ∧
      (∀ op ∈ Sample.requests, Sample.switchedOff.finds Sample.ticked.2.disk op = false) ∧
      (Sample.switchedOff.performAll Sample.ticked.2 Sample.requests).1 = Sample.switchedOff ∧
      Sample.ticked.2.OnlyAsked
        (Sample.switchedOff.performAll Sample.ticked.2 Sample.requests).2 := by
  have hoff : Sample.switchedOff.isEnabled = false := by decide +kernel
  have hown : ∀ op ∈ Sample.requests, op.isOwn = true := by
    simp [Sample.requests, Operation.isOwn]
  have hnone : Sample.requests.all
      (fun op => !Sample.switchedOff.finds Sample.ticked.2.disk op) = true := by decide +kernel
  have hfinds : ∀ op ∈ Sample.requests,
      Sample.switchedOff.finds Sample.ticked.2.disk op = false := fun op hop => by
    simpa using List.all_eq_true.1 hnone op hop
  have h := performAll_of_disabled hoff hown Sample.ticked.2
  exact ⟨hoff, hown, hfinds, h.1, h.2.2.2.2 hfinds⟩

/--
A load by name does in an engine that is switched off what it does in any: it backs the save file
up and sets the variable.
-/
theorem Engine.load_of_switchedOff :
    Sample.switchedOff.isEnabled = false ∧
      (Sample.switchedOff.perform { Sample.ticked.2 with vars := Cell.ofValue (.text "bye") }
        (.load "auto")).2.vars = Cell.ofValue (.text "hello") ∧
      (Sample.switchedOff.perform { Sample.ticked.2 with vars := Cell.ofValue (.text "bye") }
        (.load "auto")).2.disk.fileCount = Sample.ticked.2.disk.fileCount + 1 := by
  decide +kernel

end Keepsake
