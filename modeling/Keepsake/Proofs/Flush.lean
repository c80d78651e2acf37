import Keepsake.Proofs.Isolation
import Keepsake.Proofs.Reading
import Keepsake.Worker
/-!
# What a flush leaves behind

A round makes one attempt at each chosen save-file, in the order of their names, and nothing but
events comes between two attempts (`Linked`): whatever a variable or a storage does in one of them,
the next one follows. What an attempt does is told by the pass that it is (`SaveAttempt.Made`).

In a flush every attempt is made at all, due or not, changed or not, so behind it each chosen
save-file holds what its own attempt read, or that attempt failed (`Engine.Flushed`). A worker
ticks at least once, and then flushes (`Engine.Worked`).
-/

namespace Keepsake

variable {ω ε : Type}

/-! ## Attempts -/

/-- An attempt to save a save-file: where it starts, what it comes to, and where it ends. -/
structure SaveAttempt (ω : Type) where
  file : SaveFile ω
  start : World ω
  result : PassResult
  /-- the save-file behind it -/
  left : SaveFile ω
  stop : World ω

/-- The attempt is a pass. -/
def SaveAttempt.Made (a : SaveAttempt ω) (s : Storage) (format : Format) (kind : Engine.PassKind)
    (now : Nat) : Prop :=
  (a.file.pass s format now (kind = .tick) : Act ω Failure _) a.start
    = (.ok (a.result, a.left), a.stop)

/-- Each attempt starts where the one before it ended, but for events logged in between. -/
def Linked (w : World ω) : List (SaveAttempt ω) → World ω → Prop
  | [], w' => w.OnlyLogged w'
  | a :: rest, w' => w.OnlyLogged a.start ∧ Linked a.stop rest w'

section Attempts

variable {s : Storage} {format : Format} {kind : Engine.PassKind} {now : Nat}
variable {attempts before after : List (SaveAttempt ω)} {a : SaveAttempt ω} {w w₁ w' : World ω}

theorem Linked.of_onlyLogged (hw : w.OnlyLogged w₁) (h : Linked w₁ attempts w') :
    Linked w attempts w' := by
  cases attempts with
  | nil => exact hw.trans h
  | cons a rest => exact ⟨hw.trans h.1, h.2⟩

/-- Around each attempt the others are linked. -/
theorem Linked.around (h : Linked w (before ++ a :: after) w') :
    Linked w before a.start ∧ Linked a.stop after w' := by
  induction before generalizing w with
  | nil => exact h
  | cons b rest ih => exact ⟨⟨h.1, (ih h.2).1⟩, (ih h.2).2⟩

/-- What every attempt keeps is kept. -/
theorem Linked.keeps {F : Act.Frame ω} (h : Linked w attempts w')
    (hkept : ∀ a ∈ attempts, F.keeps a.start a.stop) : F.keeps w w' := by
  induction attempts generalizing w with
  | nil => exact F.alike h.alike
  | cons a rest ih =>
    rw [List.forall_mem_cons] at hkept
    exact F.trans (F.alike h.1.alike) (F.trans hkept.1 (ih h.2 hkept.2))

theorem SaveAttempt.Made.keeps {F : Act.Frame ω} (h : a.Made s format kind now)
    (hF : Act.Within F (a.file.pass s format now (kind = .tick) : Act ω Failure _)) :
    F.keeps a.start a.stop := by
  have hkept := hF a.start
  rw [h] at hkept
  exact hkept

theorem SaveAttempt.Made.effect (h : a.Made s format kind now) (hn : '/' ∉ a.file.name.toList) :
    a.file.PassEffect s format now (kind = .tick) a.start a.result a.left a.stop.disk :=
  (SaveFile.passRun_of_eq hn h).effect hn

end Attempts

/-! ## Rows of attempts -/

/-- The names of the save-files that were saved. -/
def savedNames (attempts : List (SaveAttempt ω)) : List String :=
  (attempts.filter fun a => a.result = .saved).map fun a => a.file.name

namespace Engine

/-- A row of passes as the attempts that it makes. -/
structure Attempted (s : Storage) (format : Format) (kind : PassKind) (now : Nat)
    (chosen : SaveFile ω → Bool) (l : List (String × SaveFile ω)) (files : NameMap (SaveFile ω))
    (w : World ω) (attempts : List (SaveAttempt ω)) (files' : NameMap (SaveFile ω))
    (w' : World ω) : Prop where
  each : attempts.map SaveAttempt.file = (l.map Prod.snd).filter chosen
  ascending : attempts.Pairwise fun a b => a.file.name < b.file.name
  made : ∀ a ∈ attempts, a.Made s format kind now
  linked : Linked w attempts w'
  left : ∀ a ∈ attempts, files'.get? a.file.name = some a.left
  others : ∀ name, (∀ a ∈ attempts, a.file.name ≠ name) → files'.get? name = files.get? name

section Attempted

variable {s : Storage} {format : Format} {kind : PassKind} {now : Nat} {chosen : SaveFile ω → Bool}
variable {l : List (String × SaveFile ω)}

theorem mem_of_each {attempts : List (SaveAttempt ω)}
    (h : attempts.map SaveAttempt.file = (l.map Prod.snd).filter chosen) {a : SaveAttempt ω}
    (ha : a ∈ attempts) : chosen a.file = true ∧ ∃ x ∈ l, x.2 = a.file := by
  have hfile : a.file ∈ (l.map Prod.snd).filter chosen := h ▸ List.mem_map_of_mem ha
  rw [List.mem_filter] at hfile
  exact ⟨hfile.2, List.mem_map.1 hfile.1⟩

section Step

variable {attempts : List (SaveAttempt ω)} {files files' : NameMap (SaveFile ω)} {w w₁ w' : World ω}

/-- No attempt is made at a save-file that is not chosen. -/
theorem Attempted.skip {x : String × SaveFile ω} (hc : chosen x.2 = false)
    (h : Attempted s format kind now chosen l files w attempts files' w') :
    Attempted s format kind now chosen (x :: l) files w attempts files' w' := by
  refine ⟨?_, h.ascending, h.made, h.linked, h.left, h.others⟩
  rw [h.each, List.map_cons, List.filter_cons_of_neg (by simp [hc])]

/-- An attempt is made before those at the save-files with later names. -/
theorem Attempted.cons {a : SaveAttempt ω} (hc : chosen a.file = true)
    (hmade : a.Made s format kind now) (hlogged : a.stop.OnlyLogged w₁)
    (hlater : ∀ x ∈ l, a.file.name < x.2.name)
    (h : Attempted s format kind now chosen l (files.insert a.file.name a.left) w₁ attempts
      files' w') :
    Attempted s format kind now chosen ((a.file.name, a.file) :: l) files a.start (a :: attempts)
      files' w' := by
  have hlater : ∀ b ∈ attempts, a.file.name < b.file.name := by
    intro b hb
    obtain ⟨-, x, hx, hfile⟩ := mem_of_each h.each hb
    exact hfile ▸ hlater x hx
  refine ⟨?_, ?_, ?_, ?_, ?_, ?_⟩
  · rw [List.map_cons, h.each, List.map_cons, List.filter_cons_of_pos hc]
  · rw [List.pairwise_cons]
    exact ⟨hlater, h.ascending⟩
  · rw [List.forall_mem_cons]
    exact ⟨hmade, h.made⟩
  · exact ⟨.refl a.start, h.linked.of_onlyLogged hlogged⟩
  · rw [List.forall_mem_cons]
    refine ⟨?_, h.left⟩
    -- no later attempt is at this save-file
    rw [h.others a.file.name fun b hb => (String.ne_of_lt (hlater b hb)).symm, NameMap.get?_insert,
      if_pos rfl]
  · intro other ho
    rw [List.forall_mem_cons] at ho
    rw [h.others other ho.2, NameMap.get?_insert, if_neg ho.1]

end Step

/-- A row of passes over save-files with ascending names is a row of attempts. -/
theorem runPasses_attempted (s : Storage) (format : Format) (kind : PassKind) (now : Nat)
    (chosen : SaveFile ω → Bool) (hl : ∀ x ∈ l, x.2.name = x.1 ∧ '/' ∉ x.2.name.toList)
    (hascending : l.Pairwise (fun x y => x.1 < y.1)) (files : NameMap (SaveFile ω)) (w : World ω) :
    ∃ attempts files' w', (runPasses s format kind now chosen l files : Act ω Failure _) w
        = (.ok (savedNames attempts, files'), w') ∧
      Attempted s format kind now chosen l files w attempts files' w' := by
  induction l generalizing files w with
  | nil =>
    exact ⟨[], files, w, rfl, rfl, .nil, List.forall_mem_nil _, .refl w, List.forall_mem_nil _,
      fun _ _ => rfl⟩
  | cons x rest ih =>
    obtain ⟨name, f⟩ := x
    rw [List.forall_mem_cons] at hl
    rw [List.pairwise_cons] at hascending
    cases hc : chosen f with
    | false =>
      obtain ⟨attempts, files', w', hrun, h⟩ := ih hl.2 hascending.2 files w
      refine ⟨attempts, files', w', ?_, h.skip hc⟩
      rw [runPasses, if_neg (by simp [hc])]
      exact hrun
    | true =>
      obtain ⟨rfl, hslash⟩ : f.name = name ∧ '/' ∉ f.name.toList := hl.1
      obtain ⟨result, f', w₁, hpass, heffect, -⟩ :=
        SaveFile.pass_effect (ε := Failure) f s format now (kind = .tick) hslash w
      have hname : f'.name = f.name := congrArg FileSettings.name heffect.settings.1
      obtain ⟨w₂, hlogged, hcons⟩ := runPasses_cons_of_chosen hc hpass
      obtain ⟨attempts, files', w', hrun, h⟩ :=
        ih hl.2 hascending.2 (files.insert f.name f') w₂
      have hlater : ∀ x ∈ rest, f.name < x.2.name := fun x hx =>
        (hl.2 x hx).1 ▸ hascending.1 x hx
      have hattempted := Attempted.cons (a := ⟨f, w, result, f', w₁⟩) hc hpass hlogged hlater h
      refine ⟨_, files', w', ?_, hattempted⟩
      rw [hcons, Act.bind_of_ok hrun, hname]
      by_cases hr : result = .saved <;> simp [savedNames, hr]

end Attempted

/-! ## Rounds -/

section Round

variable {e : Engine ω} {kind : PassKind} {now : Nat} {w w' : World ω}
variable {attempts : List (SaveAttempt ω)} {files : NameMap (SaveFile ω)}

/-- A round as the attempts that it makes. -/
def Rounds (e : Engine ω) (kind : PassKind) (now : Nat) (w : World ω)
    (attempts : List (SaveAttempt ω)) (files : NameMap (SaveFile ω)) (w' : World ω) : Prop :=
  Attempted e.storage e.format kind now (e.chosen kind now) e.registry.files.entries
    e.registry.files w attempts files w'

theorem round_attempted (h : e.WellNamed) (hon : e.isEnabled = true) (kind : PassKind) (now : Nat)
    (w : World ω) : ∃ attempts files w', (e.round kind now : Act ω Failure _) w
        = (.ok (savedNames attempts, e.withFiles files), w') ∧
      e.Rounds kind now w attempts files w' := by
  obtain ⟨attempts, files, w', hrun, hattempted⟩ := runPasses_attempted e.storage e.format kind now
    (e.chosen kind now) (fun x hx => h.of_mem hx) e.registry.files.ascending e.registry.files w
  refine ⟨attempts, files, w', ?_, hattempted⟩
  rw [round_eq, passes, if_pos hon, Act.bind_of_ok hrun]
  rfl

/-- An attempt of a round is at a chosen save-file of the engine. -/
theorem Rounds.of_mem (hr : e.Rounds kind now w attempts files w') (h : e.WellNamed)
    {a : SaveAttempt ω} (ha : a ∈ attempts) : e.chosen kind now a.file = true ∧
      e.registry.files.get? a.file.name = some a.file ∧ '/' ∉ a.file.name.toList := by
  obtain ⟨hchosen, x, hx, hfile⟩ := mem_of_each hr.each ha
  have hx' := h.of_mem hx
  have hget := NameMap.get?_of_mem hx
  rw [← hx'.1, hfile] at hget
  exact ⟨hchosen, hget, hfile ▸ hx'.2⟩

/-- A frame of the passes over the chosen save-files is one of the round. -/
theorem Rounds.keeps (hr : e.Rounds kind now w attempts files w') (h : e.WellNamed)
    {F : Act.Frame ω} (hF : ∀ name f, e.registry.files.get? name = some f →
      e.chosen kind now f = true →
      Act.Within F (f.pass e.storage e.format now (kind = .tick) : Act ω Failure _)) :
    F.keeps w w' :=
  hr.linked.keeps fun a ha =>
    have hmem := hr.of_mem h ha
    (hr.made a ha).keeps (hF _ a.file hmem.2.1 hmem.1)

/-- A round leaves everything of a save-file that is not chosen. -/
theorem Rounds.out (hr : e.Rounds kind now w attempts files w') (h : e.WellNamed) {name : String}
    {f : SaveFile ω} (hf : e.registry.files.get? name = some f)
    (hout : e.chosen kind now f = false) :
    files.get? name = some f ∧ e.storage.SameEntries (IsLastingName name) w.disk w'.disk := by
  -- no attempt is made at it, as its name tells it from the others
  have hne : ∀ a ∈ attempts, a.file.name ≠ name := by
    rintro a ha rfl
    have hmem := hr.of_mem h ha
    obtain rfl : f = a.file := Option.some.inj (hf.symm.trans hmem.2.1)
    rw [hmem.1] at hout
    cases hout
  refine ⟨(hr.others name hne).trans hf, ?_⟩
  have hkept : (Act.Frame.entries e.storage (IsLastingName name)).keeps w w' :=
    hr.linked.keeps fun a ha =>
      (hr.made a ha).keeps (a.file.within_pass_entries e.storage e.format now (kind = .tick)
        (hr.of_mem h ha).2.2 (hne a ha).symm)
  exact hkept.1

/-- Around an attempt of a round the save-file and its save file are as the attempt has them. -/
theorem Rounds.around (hr : e.Rounds kind now w attempts files w') (h : e.WellNamed)
    {a : SaveAttempt ω} (ha : a ∈ attempts) :
    a.file.PassEffect e.storage e.format now (kind = .tick) a.start a.result a.left a.stop.disk ∧
      e.storage.content? a.start.disk (canonicalName a.file.name)
        = e.storage.content? w.disk (canonicalName a.file.name) ∧
      e.storage.content? w'.disk (canonicalName a.file.name)
        = e.storage.content? a.stop.disk (canonicalName a.file.name) := by
  have hslash := (hr.of_mem h ha).2.2
  have hname := isEntryName_canonicalName hslash
  obtain ⟨before, after, hsplit⟩ := List.append_of_mem ha
  have hascending := hr.ascending
  have hlinked := hr.linked
  rw [hsplit] at hascending hlinked
  rw [List.pairwise_append, List.pairwise_cons] at hascending
  -- the other attempts are at other save-files
  have others : ∀ b ∈ attempts, b.file.name ≠ a.file.name →
      (Act.Frame.entries e.storage (IsLastingName a.file.name)).keeps b.start b.stop := by
    intro b hb hne
    exact (hr.made b hb).keeps (b.file.within_pass_entries e.storage e.format now (kind = .tick)
      (hr.of_mem h hb).2.2 hne.symm)
  have hbefore := hlinked.around.1.keeps fun b hb =>
    others b (hsplit ▸ List.mem_append_left _ hb)
      (String.ne_of_lt (hascending.2.2 b hb a (List.mem_cons_self ..)))
  have hafter := hlinked.around.2.keeps fun b hb =>
    others b (hsplit ▸ List.mem_append_right _ (List.mem_cons_of_mem _ hb))
      (String.ne_of_lt (hascending.2.1.1 b hb)).symm
  exact ⟨(hr.made a ha).effect hslash, hbefore.1.content?_eq .canonical hname,
    hafter.1.content?_eq .canonical hname⟩

end Round

/-! ## What rounds leave of an engine -/

/-- The same engine but for what its save-files remember. -/
structure SameSetup (e e' : Engine ω) : Prop where
  storage : e'.storage = e.storage
  settings : e'.registry.settings = e.registry.settings
  files : ∀ name, (e'.registry.files.get? name).map (fun f => (f.settings, f.accessors))
    = (e.registry.files.get? name).map fun f => (f.settings, f.accessors)

section SameSetup

variable {e e' e₁ e₂ e₃ : Engine ω}

theorem SameSetup.refl (e : Engine ω) : SameSetup e e := ⟨rfl, rfl, fun _ => rfl⟩

theorem SameSetup.trans (h : SameSetup e₁ e₂) (h' : SameSetup e₂ e₃) : SameSetup e₁ e₃ :=
  ⟨h'.storage.trans h.storage, h'.settings.trans h.settings,
    fun name => (h'.files name).trans (h.files name)⟩

theorem SameSetup.of_get? (h : SameSetup e e') {name : String} {f' : SaveFile ω}
    (hf : e'.registry.files.get? name = some f') : ∃ f, e.registry.files.get? name = some f ∧
      f'.settings = f.settings ∧ f'.accessors = f.accessors := by
  have hfiles := h.files name
  rw [hf] at hfiles
  obtain ⟨f, hget, heq⟩ := Option.map_eq_some_iff.1 hfiles.symm
  rw [Prod.mk.injEq] at heq
  exact ⟨f, hget, heq.1.symm, heq.2.symm⟩

theorem SameSetup.wellNamed (h : SameSetup e e') (he : e.WellNamed) : e'.WellNamed := by
  intro name f' hf'
  obtain ⟨f, hf, hsettings, -⟩ := h.of_get? hf'
  obtain ⟨hname, hcheck⟩ := he name f hf
  exact ⟨(congrArg FileSettings.name hsettings).trans hname, hsettings ▸ hcheck⟩

/-- A round changes only what save-files remember. -/
theorem Rounds.sameSetup {kind : PassKind} {now : Nat} {w w' : World ω}
    {attempts : List (SaveAttempt ω)} {files : NameMap (SaveFile ω)}
    (hr : e.Rounds kind now w attempts files w') (h : e.WellNamed) :
    SameSetup e (e.withFiles files) := by
  refine ⟨rfl, rfl, fun name => ?_⟩
  show (files.get? name).map _ = _
  by_cases hat : ∃ a ∈ attempts, a.file.name = name
  · obtain ⟨a, ha, rfl⟩ := hat
    obtain ⟨-, hget, hslash⟩ := hr.of_mem h ha
    obtain ⟨hsettings, haccessors⟩ := ((hr.made a ha).effect hslash).settings
    rw [hr.left a ha, hget, Option.map_some, Option.map_some, hsettings, haccessors]
  · rw [hr.others name fun a ha heq => hat ⟨a, ha, heq⟩]

end SameSetup

/-! ## Flushes -/

/-- Whether a flush saves a save-file: it is enabled, or disabled ones are to be flushed too. -/
def flushes (e : Engine ω) (f : SaveFile ω) : Bool :=
  f.settings.enabled || e.registry.settings.flushDisabled

/-- A part of the variables that reading what a flush saves does not touch. -/
def Unread {β : Type} (e : Engine ω) (part : ω → β) : Prop :=
  ∀ name f, e.registry.files.get? name = some f → e.flushes f = true →
    ∀ x ∈ f.accessors.entries, ∀ vars, part (x.2.get vars).2 = part vars

/-- What rounds leave alone: the save-files that no flush saves, and what is not read for them. -/
structure Spares (e : Engine ω) (w : World ω) (e' : Engine ω) (w' : World ω) : Prop where
  setup : SameSetup e e'
  outside : ∀ name f, e.registry.files.get? name = some f → e.flushes f = false →
    e'.registry.files.get? name = some f ∧
    e.storage.SameEntries (IsLastingName name) w.disk w'.disk
  unread : ∀ {β : Type} (part : ω → β), e.Unread part → part w'.vars = part w.vars

section Spares

variable {e e₁ e₂ e₃ : Engine ω} {w w' w₁ w₂ w₃ : World ω}

theorem SameSetup.isEnabled_eq (h : SameSetup e₁ e₂) : e₂.isEnabled = e₁.isEnabled :=
  congrArg Settings.enabled h.settings

theorem SameSetup.flushes_eq (h : SameSetup e₁ e₂) : e₂.flushes = e₁.flushes := by
  funext f
  rw [flushes, flushes, h.settings]

theorem SameSetup.unread (h : SameSetup e₁ e₂) {β : Type} {part : ω → β} (hpart : e₁.Unread part) :
    e₂.Unread part := by
  intro name f₂ hf₂ hin
  obtain ⟨f₁, hf₁, hsettings, haccessors⟩ := h.of_get? hf₂
  rw [haccessors]
  refine hpart name f₁ hf₁ ?_
  rw [← hin, h.flushes_eq, flushes, flushes, hsettings]

theorem Spares.of_onlyLogged (e : Engine ω) (h : w.OnlyLogged w') : e.Spares w e w' where
  setup := .refl e
  outside _ _ hf _ := ⟨hf, h.alike.disk ▸ .refl _ _ _⟩
  unread part _ := congrArg part h.alike.vars

theorem Spares.trans (h : e₁.Spares w₁ e₂ w₂) (h' : e₂.Spares w₂ e₃ w₃) : e₁.Spares w₁ e₃ w₃ where
  setup := h.setup.trans h'.setup
  outside name f hf hout := by
    obtain ⟨hf₂, hentries⟩ := h.outside name f hf hout
    have hout₂ : e₂.flushes f = false := h.setup.flushes_eq ▸ hout
    obtain ⟨hf₃, hentries'⟩ := h'.outside name f hf₂ hout₂
    exact ⟨hf₃, hentries.trans (h.setup.storage ▸ hentries')⟩
  unread part hpart := (h'.unread part (h.setup.unread hpart)).trans (h.unread part hpart)

/-- A round reads and touches at most what a flush would save. -/
theorem Rounds.spares {kind : PassKind} {now : Nat} {attempts : List (SaveAttempt ω)}
    {files : NameMap (SaveFile ω)} (hr : e.Rounds kind now w attempts files w') (h : e.WellNamed)
    (hset : ∀ f, e.chosen kind now f = true → e.flushes f = true) :
    e.Spares w (e.withFiles files) w' where
  setup := hr.sameSetup h
  outside name f hf hout := hr.out h hf <| by
    rw [Bool.eq_false_iff]
    intro hchosen
    exact Bool.false_ne_true (hout.symm.trans (hset f hchosen))
  unread part hpart := hr.keeps (F := .vars part) h fun name f hf hchosen =>
    f.within_pass_vars e.storage e.format now (kind = .tick) (h.no_slash hf)
      (hpart name f hf (hset f hchosen))

/-- A tick comes to an end, and spares what a flush would not save. -/
theorem tick_spares (h : e.WellNamed) (hon : e.isEnabled = true) (now : Nat) (w : World ω) :
    ∃ names e₁ w₁, (e.tick now : Act ω Failure _) w = (.ok (names, e₁), w₁) ∧ e.Spares w e₁ w₁ := by
  obtain ⟨attempts, files, w₁, htick, hr⟩ := round_attempted h hon .tick now w
  refine ⟨_, _, w₁, htick, hr.spares h fun f hf => ?_⟩
  have hf : (f.settings.enabled && f.isDue now) = true := hf
  rw [Bool.and_eq_true] at hf
  rw [flushes, hf.1, Bool.true_or]

/-- Ticks at some instants, one straight after the other. -/
inductive TicksAt : Engine ω → World ω → List Nat → Engine ω → World ω → Prop where
  | nil (e : Engine ω) (w : World ω) : TicksAt e w [] e w
  | cons {e e₁ e' : Engine ω} {w w₁ w' : World ω} {now : Nat} {rest : List Nat}
    {names : List String} (tick : (e.tick now : Act ω Failure _) w = (.ok (names, e₁), w₁))
    (later : TicksAt e₁ w₁ rest e' w') : TicksAt e w (now :: rest) e' w'

theorem tickAll_spares (h : e.WellNamed) (hon : e.isEnabled = true) (ticks : List Nat)
    (w : World ω) : ∃ e₁ w₁, (e.tickAll ticks : Act ω Failure _) w = (.ok e₁, w₁) ∧
      e.TicksAt w ticks e₁ w₁ ∧ e.Spares w e₁ w₁ := by
  induction ticks generalizing e w with
  | nil => exact ⟨e, w, rfl, .nil e w, .of_onlyLogged e (.refl w)⟩
  | cons now rest ih =>
    obtain ⟨names, e₁, w₁, htick, hspares⟩ := tick_spares h hon now w
    obtain ⟨e₂, w₂, hrest, hticks, hspares'⟩ := ih (hspares.setup.wellNamed h)
      (hspares.setup.isEnabled_eq.trans hon) w₁
    refine ⟨e₂, w₂, ?_, .cons htick hticks, hspares.trans hspares'⟩
    rw [tickAll, Act.bind_of_ok htick]
    exact hrest

end Spares

/-- What a flush does, attempt by attempt, and what it leaves behind. -/
structure Flushed (e : Engine ω) (now : Nat) (w : World ω) (attempts : List (SaveAttempt ω))
    (names : List String) (e' : Engine ω) (w' : World ω) : Prop where
  /-- there is one attempt at each save-file of the set, and no other -/
  each : attempts.map SaveAttempt.file = e.registry.files.values.filter e.flushes
  made : ∀ a ∈ attempts, a.Made e.storage e.format .flush now
  linked : Linked w attempts w'
  named : names = savedNames attempts
  ascending : names.Pairwise (· < ·)
  /--
  a save-file that was saved remembers the values that its accessors answered in its attempt, and
  its save file holds them
  -/
  saved : ∀ a ∈ attempts, a.result = .saved → ∃ snapshot w₁ data,
    (a.file.readSnapshot : Act ω Failure Snapshot) a.start = (.ok snapshot, w₁) ∧
    a.file.Reads a.start.vars snapshot ∧
    e'.registry.files.get? a.file.name = some { a.file with lastSave := some ⟨snapshot, now⟩ } ∧
    e.format.encode snapshot = .ok data ∧
    e.storage.content? w'.disk (canonicalName a.file.name) = some data
  /-- an attempt that did not save failed, and left the save-file and its save file -/
  failed : ∀ a ∈ attempts, a.result ≠ .saved → (∃ failure, a.result = .failed failure) ∧
    e'.registry.files.get? a.file.name = some a.file ∧
    e.storage.content? w'.disk (canonicalName a.file.name)
      = e.storage.content? w.disk (canonicalName a.file.name)
  spares : e.Spares w e' w'

section Flushed

variable {e e' : Engine ω} {now : Nat} {w w' : World ω} {attempts : List (SaveAttempt ω)}
variable {files : NameMap (SaveFile ω)}

theorem savedNames_ascending (h : attempts.Pairwise fun a b => a.file.name < b.file.name) :
    (savedNames attempts).Pairwise (· < ·) :=
  List.pairwise_map.2 (h.filter _)

/-- The round of a flush is as `Flushed` says. -/
theorem Rounds.flushed (hr : e.Rounds .flush now w attempts files w') (h : e.WellNamed) :
    e.Flushed now w attempts (savedNames attempts) (e.withFiles files) w' where
  each := hr.each
  made := hr.made
  linked := hr.linked
  named := rfl
  ascending := savedNames_ascending hr.ascending
  saved a ha hsaved := by
    obtain ⟨heffect, -, hafter⟩ := hr.around h ha
    have hleft := hr.left a ha
    rw [hsaved] at heffect
    generalize hl : a.left = left at heffect hleft
    generalize hd : a.stop.disk = d at heffect hafter
    cases heffect with
    | @saved snapshot w₁ data d₁ d₂ read changed encoded backup puts =>
      exact ⟨snapshot, w₁, data, read, SaveFile.reads_of_readSnapshot read, hleft, encoded,
        hafter.trans puts.written⟩
  failed a ha hnot := by
    obtain ⟨heffect, hbefore, hafter⟩ := hr.around h ha
    obtain ⟨hsame, hcontent⟩ := heffect.of_not_saved (hr.of_mem h ha).2.2 hnot
    refine ⟨?_, hsame ▸ hr.left a ha, hafter.trans (hcontent.trans hbefore)⟩
    generalize a.result = result at heffect hnot
    generalize a.left = left at heffect
    generalize a.stop.disk = d at heffect
    cases heffect with
    | saved => exact absurd rfl hnot
    | unchanged read only same => cases only
    | failed failure backup => exact ⟨failure, rfl⟩
  spares := hr.spares h fun _ hf => hf

theorem flush_flushed (h : e.WellNamed) (hon : e.isEnabled = true) (now : Nat) (w : World ω) :
    ∃ attempts names e' w', (e.flush now : Act ω Failure _) w = (.ok (names, e'), w') ∧
      e.Flushed now w attempts names e' w' := by
  obtain ⟨attempts, files, w', hflush, hr⟩ := round_attempted h hon .flush now w
  exact ⟨attempts, _, _, w', hflush, hr.flushed h⟩

/--
The run of a worker over an enabled engine: it ticks at its start, then at each later instant, and
at last it flushes. Nothing else happens but that events are logged.
-/
inductive Worked (e : Engine ω) (first : Nat) (later : List Nat) (stop : Nat) (w : World ω)
    (e' : Engine ω) (w' : World ω) : Prop where
  | run {w₁ w₂ w₃ w₄ : World ω} {e₁ e₂ : Engine ω} {names₁ names : List String}
    {attempts : List (SaveAttempt ω)} (started : w.OnlyLogged w₁)
    (tick : (e.tick first : Act ω Failure _) w₁ = (.ok (names₁, e₁), w₂))
    (ticks : e₁.TicksAt w₂ later e₂ w₃) (setup : SameSetup e e₂)
    (flush : (e₂.flush stop : Act ω Failure _) w₃ = (.ok (names, e'), w₄))
    (flushed : e₂.Flushed stop w₃ attempts names e' w₄) (stopped : w₄.OnlyLogged w') :
    Worked e first later stop w e' w'

theorem work_worked (h : e.WellNamed) (hon : e.isEnabled = true) (w : World ω) (first : Nat)
    (later : List Nat) (stop : Nat) :
    ∃ e' w', (e.work (first :: later) stop : Act ω Failure _) w = (.ok e', w') ∧
      e.Spares w e' w' ∧ e.Worked first later stop w e' w' := by
  obtain ⟨w₁, hstarted, hlogged₁⟩ := Act.tell_onlyLogged (ε := Failure) .worker .info
    "autosave worker started"
    [("files", .number e.registry.files.size),
      ("poll_ms", .number e.registry.settings.pollMillis)] w
  obtain ⟨names₁, e₁, w₂, htick, hspares₁⟩ := tick_spares h hon first w₁
  obtain ⟨e₂, w₃, hticks, hticksAt, hspares₂⟩ := tickAll_spares (hspares₁.setup.wellNamed h)
    (hspares₁.setup.isEnabled_eq.trans hon) later w₂
  have hspares := hspares₁.trans hspares₂
  obtain ⟨attempts, names, e', w₄, hflush, hflushed⟩ := flush_flushed (hspares.setup.wellNamed h)
    (hspares.setup.isEnabled_eq.trans hon) stop w₃
  obtain ⟨w', hstopped, hlogged'⟩ := Act.tell_onlyLogged (ε := Failure) .worker .info
    "autosave worker stopped" [("flushed", .number names.length)] w₄
  refine ⟨e', w', ?_, ?_, .run hlogged₁ htick hticksAt hspares.setup hflush hflushed hlogged'⟩
  · rw [work, if_pos hon, Act.bind_of_ok hstarted]
    simp only [List.head_cons, List.tail_cons]
    rw [Act.bind_of_ok htick, Act.bind_of_ok hticks, Act.bind_of_ok hflush]
    simp only []
    rw [Act.bind_of_ok hstopped]
    rfl
  · exact (Spares.of_onlyLogged e hlogged₁).trans
      (hspares.trans (hflushed.spares.trans (.of_onlyLogged e' hlogged')))

/--
A flush of an enabled engine is complete. It makes one attempt at each save-file that is enabled,
and at each disabled one exactly if the settings say so, whatever happens to the others; it gives
the names of those saved, which remember what their attempts read, as their save files hold it.
A worker ticks and then makes such a flush, and what no flush saves it spares. One that is stopped
at once has ticked just once.
-/
theorem flush_complete (h : e.WellNamed) (hon : e.isEnabled = true) (w : World ω) :
    (∀ now, ∃ attempts names e' w', (e.flush now : Act ω Failure _) w = (.ok (names, e'), w') ∧
      e.Flushed now w attempts names e' w') ∧
    (∀ first later stop, ∃ e' w',
      (e.work (first :: later) stop : Act ω Failure _) w = (.ok e', w') ∧ e.Spares w e' w' ∧
        e.Worked first later stop w e' w') ∧
    ∀ first stop, ∃ e' w', (e.work [first] stop : Act ω Failure _) w = (.ok e', w') ∧
      ∃ w₁ names₁ e₁ w₂ attempts names w₃, w.OnlyLogged w₁ ∧
        (e.tick first : Act ω Failure _) w₁ = (.ok (names₁, e₁), w₂) ∧ SameSetup e e₁ ∧
        (e₁.flush stop : Act ω Failure _) w₂ = (.ok (names, e'), w₃) ∧
        e₁.Flushed stop w₂ attempts names e' w₃ ∧ w₃.OnlyLogged w' := by
  refine ⟨fun now => flush_flushed h hon now w, work_worked h hon w, fun first stop => ?_⟩
  obtain ⟨e', w', hwork, -, hworked⟩ := work_worked h hon w first [] stop
  refine ⟨e', w', hwork, ?_⟩
  cases hworked with
  | @run w₁ w₂ _ w₄ e₁ _ names₁ names attempts started tick ticks setup flush flushed stopped =>
    cases ticks
    exact ⟨w₁, names₁, e₁, w₂, attempts, names, w₄, started, tick, setup, flush, flushed, stopped⟩

end Flushed

end Engine

/--
A save-file is flushed behind another one whose accessor panics, and so it is by a worker that is
stopped at once.
-/
theorem Engine.flush_complete_sample :
    Sample.crowded.WellNamed ∧ Sample.crowded.isEnabled = true ∧
      (∃ attempts e' w',
        (Sample.crowded.flush 6 : Act _ Failure _) (Sample.world (true, false) Disk.bare)
          = (.ok (["auto"], e'), w') ∧
        Sample.crowded.Flushed 6 (Sample.world (true, false) Disk.bare) attempts ["auto"] e' w') ∧
      ∃ e' w', (Sample.crowded.work [5] 6 : Act _ Failure _)
          (Sample.world (true, false) Disk.bare) = (.ok e', w') ∧
        Sample.crowded.Spares (Sample.world (true, false) Disk.bare) e' w' ∧
        Sample.crowded.Worked 5 [] 6 (Sample.world (true, false) Disk.bare) e' w' ∧
        (e'.registry.files.get? "auto").bind (fun f => f.lastSave.map Save.time) = some 6 := by
  have hon : Sample.crowded.isEnabled = true := by decide +kernel
  have hnames : ((Sample.crowded.flush 6 : Act _ Failure _)
      (Sample.world (true, false) Disk.bare)).1.map Prod.fst = .ok ["auto"] := by decide +kernel
  have hlast : ((Sample.crowded.work [5] 6 : Act _ Failure _)
      (Sample.world (true, false) Disk.bare)).1.map (fun e =>
        (e.registry.files.get? "auto").bind fun f => f.lastSave.map Save.time)
      = .ok (some 6) := by decide +kernel
  have h := flush_complete Sample.wellNamed_crowded hon (Sample.world (true, false) Disk.bare)
  obtain ⟨attempts, names, e₁, w₁, hflush, hflushed⟩ := h.1 6
  obtain ⟨e', w', hwork, hspares, hworked⟩ := h.2.1 5 [] 6
  obtain rfl : names = ["auto"] := by
    rw [hflush] at hnames
    exact Outcome.ok.inj hnames
  rw [hwork] at hlast
  exact ⟨Sample.wellNamed_crowded, hon, ⟨attempts, e₁, w₁, hflush, hflushed⟩,
    e', w', hwork, hspares, hworked, Outcome.ok.inj hlast⟩

end Keepsake
