import Keepsake.Engine
import Keepsake.Proofs.Pass
/-!
# What a row of passes does

A tick and a flush are rows of passes over the save-files in the order of their names. `Sweep`
tells such a row pass by pass; whatever happens in one of them the next is made, so a row always
ends with an answer (`runPasses_sweep`). A save-file is behind the row what its own pass has made
of it.
-/

namespace Keepsake

variable {ω ε : Type}

/--
A row of passes: the save-files and the world before and behind it, and the names of those saved.
-/
inductive Sweep (s : Storage) (format : Format) (kind : Engine.PassKind) (now : Nat)
    (chosen : SaveFile ω → Bool) : List (String × SaveFile ω) → NameMap (SaveFile ω) → World ω →
      List String → NameMap (SaveFile ω) → World ω → Prop where
  | done {files : NameMap (SaveFile ω)} {w : World ω} :
    Sweep s format kind now chosen [] files w [] files w
  | skip {name : String} {f : SaveFile ω} {rest : List (String × SaveFile ω)}
    {files files' : NameMap (SaveFile ω)} {w w' : World ω} {names : List String}
    (out : chosen f = false) (more : Sweep s format kind now chosen rest files w names files' w') :
    Sweep s format kind now chosen ((name, f) :: rest) files w names files' w'
  | pass {name : String} {f f' : SaveFile ω} {rest : List (String × SaveFile ω)}
    {files files' : NameMap (SaveFile ω)} {w w₁ w' : World ω} {names : List String}
    {result : PassResult} (taken : chosen f = true)
    (effect : f.PassEffect s format now (kind = .tick) w result f' w₁.disk)
    (setting : w.SameSetting w₁)
    (more : Sweep s format kind now chosen rest (files.insert name f') w₁ names files' w') :
    Sweep s format kind now chosen ((name, f) :: rest) files w
      (if result = PassResult.saved then f.name :: names else names) files' w'

namespace Engine

theorem tellPass_apply (kind : PassKind) (file : String) (result : PassResult) (w : World ω) :
    ∃ w', (tellPass kind file result : Act ω ε Unit) w = (.ok (), w') ∧ w.OnlyLogged w' := by
  cases result with
  | saved => exact ⟨w, rfl, .refl w⟩
  | unchanged =>
    cases kind with
    | tick => exact Act.tell_onlyLogged _ _ _ _ w
    | flush => exact ⟨w, rfl, .refl w⟩
  | failed f => cases kind <;> exact Act.tell_onlyLogged _ _ _ _ w

/-- A chosen save-file gets its pass, and the row goes on behind it. -/
theorem runPasses_cons_of_chosen {s : Storage} {format : Format} {kind : PassKind} {now : Nat}
    {chosen : SaveFile ω → Bool} {f f' : SaveFile ω} {w w₁ : World ω} {result : PassResult}
    (hc : chosen f = true)
    (hp : (f.pass s format now (kind = .tick) : Act ω ε _) w = (.ok (result, f'), w₁)) :
    ∃ w₂, w₁.OnlyLogged w₂ ∧ ∀ name rest files,
      (runPasses s format kind now chosen ((name, f) :: rest) files : Act ω ε _) w =
        (do
          let (names, files) ← runPasses s format kind now chosen rest (files.insert name f')
          pure (if result = PassResult.saved then f'.name :: names else names, files)) w₂ := by
  obtain ⟨w₂, htell, hlogged⟩ := tellPass_apply (ε := ε) kind f'.name result w₁
  refine ⟨w₂, hlogged, ?_⟩
  intro name rest files
  rw [runPasses, if_pos hc, Act.bind_of_ok hp]
  simp only []
  rw [Act.bind_of_ok htell]

theorem runPasses_sweep (s : Storage) (format : Format) (kind : PassKind) (now : Nat)
    (chosen : SaveFile ω → Bool) (l : List (String × SaveFile ω)) (files : NameMap (SaveFile ω))
    (w : World ω) (hl : ∀ e ∈ l, '/' ∉ e.2.name.toList) :
    ∃ names files' w', (runPasses s format kind now chosen l files : Act ω ε _) w
        = (.ok (names, files'), w') ∧ Sweep s format kind now chosen l files w names files' w' := by
  induction l generalizing files w with
  | nil => exact ⟨[], files, w, rfl, .done⟩
  | cons e rest ih =>
    obtain ⟨name, f⟩ := e
    have hrest : ∀ e ∈ rest, '/' ∉ e.2.name.toList := fun e he => hl e (List.mem_cons_of_mem _ he)
    cases hc : chosen f with
    | false =>
      obtain ⟨names, files', w', hrun, hsweep⟩ := ih files w hrest
      refine ⟨names, files', w', ?_, .skip hc hsweep⟩
      rw [runPasses, if_neg (by simp [hc])]
      exact hrun
    | true =>
      obtain ⟨result, f', w₁, hp, heffect, hset⟩ := SaveFile.pass_effect (ε := ε) f s format now
        (kind = .tick) (hl (name, f) (List.mem_cons_self ..)) w
      obtain ⟨w₂, hlogged, hrun₁⟩ := runPasses_cons_of_chosen hc hp
      have ha := hlogged.alike
      obtain ⟨names, files', w', hrun, hsweep⟩ := ih (files.insert name f') w₂ hrest
      refine ⟨_, files', w', ?_, .pass hc (ha.disk ▸ heffect) (hset.trans ha.toSameSetting) hsweep⟩
      rw [hrun₁, Act.bind_of_ok hrun]
      have hname : f'.name = f.name := congrArg FileSettings.name heffect.settings.1
      rw [hname]
      rfl

end Engine

/-! ## What a sweep leaves alone -/

namespace Sweep

variable {s : Storage} {format : Format} {kind : Engine.PassKind} {now : Nat}
variable {chosen : SaveFile ω → Bool} {l : List (String × SaveFile ω)}
variable {files files' : NameMap (SaveFile ω)} {w w' : World ω} {names : List String}

/-- A row of passes sets neither the clock nor the faults to come. -/
theorem sameSetting (h : Sweep s format kind now chosen l files w names files' w') :
    w.SameSetting w' := by
  induction h with
  | done => exact World.SameSetting.refl _
  | skip _ _ ih => exact ih
  | pass _ _ setting _ ih => exact setting.trans ih

/-- A save-file that is not in the row is as it was. -/
theorem get?_of_not_mem (h : Sweep s format kind now chosen l files w names files' w')
    {other : String} (hl : ∀ e ∈ l, e.1 ≠ other) : files'.get? other = files.get? other := by
  induction h with
  | done => rfl
  | skip _ _ ih => exact ih fun e he => hl e (List.mem_cons_of_mem _ he)
  | pass _ _ _ _ ih =>
    rw [ih fun e he => hl e (List.mem_cons_of_mem _ he), NameMap.get?_insert,
      if_neg (hl _ (List.mem_cons_self ..))]

end Sweep

end Keepsake
