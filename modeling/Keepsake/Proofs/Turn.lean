import Keepsake.Proofs.LastSave
import Keepsake.Proofs.Neighbour
/-!
# The turn of a save-file

In a row of passes each save-file has one turn. Its pass starts in the world that the passes
before it left (`Engine.passStart`), and behind it come the passes over the others. What is kept
by all of those is kept from the start of the row to the turn, and from the turn to the end of the
row (`Engine.Turn`), so what a row does to a save-file is what its own pass does.
-/

namespace Keepsake

variable {ω ε : Type}

/-! ## Rows in two parts -/

/-- An outcome that a pass has is one of those that it can have. -/
theorem SaveFile.passRun_of_eq {f f' : SaveFile ω} {s : Storage} {format : Format} {now : Nat}
    {onlyChanged : Bool} (hn : '/' ∉ f.name.toList) {w w' : World ω} {result : PassResult}
    (h : (f.pass s format now onlyChanged : Act ω ε _) w = (.ok (result, f'), w')) :
    f.PassRun s format now onlyChanged w result f' w'.disk := by
  obtain ⟨result₁, f₁, w₁, hpass, hrun, -⟩ := f.pass_run s format now onlyChanged hn w
  rw [hpass] at h
  cases h
  exact hrun

namespace Engine

theorem within_tellPass {F : Act.Frame ω} (kind : PassKind) (file : String) (result : PassResult) :
    Act.Within F (tellPass kind file result : Act ω ε Unit) := fun w => by
  obtain ⟨w', heq, hlogged⟩ := tellPass_apply (ε := ε) kind file result w
  rw [heq]
  exact F.alike hlogged.alike

/-- A row stays where its passes do. -/
theorem within_runPasses {F : Act.Frame ω} {s : Storage} {format : Format} {kind : PassKind}
    {now : Nat} {l : List (String × SaveFile ω)}
    (h : ∀ x ∈ l, Act.Within F (x.2.pass s format now (kind = .tick) : Act ω ε _))
    (chosen : SaveFile ω → Bool) (files : NameMap (SaveFile ω)) :
    Act.Within F (runPasses s format kind now chosen l files : Act ω ε _) := by
  induction l generalizing files with
  | nil => exact Act.within_pure _
  | cons x rest ih =>
    obtain ⟨name, f⟩ := x
    rw [List.forall_mem_cons] at h
    unfold runPasses
    split
    · exact h.1.bind fun r => (within_tellPass kind r.2.name r.1).bind fun _ =>
        (ih h.2 _).bind fun _ => Act.within_pure _
    · exact ih h.2 files

theorem runPasses_append {s : Storage} {format : Format} {kind : PassKind} {now : Nat}
    {chosen : SaveFile ω → Bool} {l₁ l₂ : List (String × SaveFile ω)}
    {files files₁ files₂ : NameMap (SaveFile ω)} {w w₁ w₂ : World ω} {names₁ names₂ : List String}
    (h₁ : (runPasses s format kind now chosen l₁ files : Act ω ε _) w = (.ok (names₁, files₁), w₁))
    (h₂ : (runPasses s format kind now chosen l₂ files₁ : Act ω ε _) w₁
      = (.ok (names₂, files₂), w₂)) :
    (runPasses s format kind now chosen (l₁ ++ l₂) files : Act ω ε _) w
      = (.ok (names₁ ++ names₂, files₂), w₂) := by
  induction l₁ generalizing files w names₁ with
  | nil =>
    cases h₁
    exact h₂
  | cons x rest ih =>
    obtain ⟨name, f⟩ := x
    rw [runPasses] at h₁
    rw [List.cons_append, runPasses]
    split at h₁
    · next hc =>
      rw [if_pos hc]
      obtain ⟨⟨result, f'⟩, wp, hpass, h₁⟩ := Act.bind_eq_ok h₁
      obtain ⟨u, wt, htell, h₁⟩ := Act.bind_eq_ok h₁
      obtain ⟨⟨names, files'⟩, wr, hrest, h₁⟩ := Act.bind_eq_ok h₁
      cases h₁
      rw [Act.bind_of_ok hpass]
      simp only []
      rw [Act.bind_of_ok htell, Act.bind_of_ok (ih hrest)]
      split <;> rfl
    · next hc =>
      rw [if_neg hc]
      exact ih h₁

end Engine

namespace Sweep

variable {s : Storage} {format : Format} {kind : Engine.PassKind} {now : Nat}
variable {chosen : SaveFile ω → Bool} {l : List (String × SaveFile ω)}
variable {files files' : NameMap (SaveFile ω)} {w w' : World ω} {names : List String}

/-- The names of a row are names of its save-files, in their order. -/
theorem names_sublist (h : Sweep s format kind now chosen l files w names files' w')
    (hl : ∀ x ∈ l, x.2.name = x.1) : names.Sublist (l.map (·.1)) := by
  induction h with
  | done => exact List.nil_sublist _
  | skip _ _ ih => exact (ih fun x hx => hl x (List.mem_cons_of_mem _ hx)).cons _
  | @pass name f _ _ _ _ _ _ _ _ result _ _ _ _ ih =>
    have hsub := ih fun x hx => hl x (List.mem_cons_of_mem _ hx)
    have hname : f.name = name := hl _ (List.mem_cons_self ..)
    rw [List.map_cons]
    split
    · rw [hname]
      exact hsub.cons_cons _
    · exact hsub.cons _

theorem not_mem_names (h : Sweep s format kind now chosen l files w names files' w')
    {other : String}
    (hl : ∀ x ∈ l, x.2.name = x.1) (ho : ∀ x ∈ l, x.1 ≠ other) : other ∉ names := by
  intro hmem
  obtain ⟨x, hx, hname⟩ := List.mem_map.1 ((h.names_sublist hl).subset hmem)
  exact ho x hx hname

end Sweep

/-! ## Around a save-file -/

/-- What look-up finds stands behind the entries under other names. -/
theorem NameMap.eq_takeWhile_append_of_lookup {α : Type} {l : List (String × α)} {name : String}
    {value : α} (h : lookup name l = some value) :
    ∃ rest, l = l.takeWhile (fun x => x.1 ≠ name) ++ (name, value) :: rest := by
  induction l with
  | nil => cases h
  | cons x rest ih =>
    obtain ⟨k, v⟩ := x
    unfold lookup at h
    split at h
    · next hk =>
      cases h
      exact ⟨rest, by simp [hk]⟩
    · next hk =>
      obtain ⟨rest', hrest⟩ := ih h
      exact ⟨rest', by rw [List.takeWhile_cons_of_pos (by simp [hk]), List.cons_append, ← hrest]⟩

/-- The entries of a map before and behind one of them have other names. -/
theorem NameMap.entries_around {α : Type} {m : NameMap α} {name : String} {value : α}
    (h : m.get? name = some value) :
    ∃ rest, m.entries = m.entries.takeWhile (fun x => x.1 ≠ name) ++ (name, value) :: rest ∧
      (∀ x ∈ m.entries.takeWhile (fun x => x.1 ≠ name), x.1 ≠ name) ∧ ∀ x ∈ rest, x.1 ≠ name := by
  obtain ⟨rest, hsplit⟩ := NameMap.eq_takeWhile_append_of_lookup h
  have hascending := m.ascending
  rw [hsplit, List.pairwise_append, List.pairwise_cons] at hascending
  obtain ⟨-, ⟨hrest, -⟩, hbefore⟩ := hascending
  exact ⟨rest, hsplit, fun x hx => String.ne_of_lt (hbefore x hx _ (List.mem_cons_self ..)),
    fun x hx => (String.ne_of_lt (hrest x hx)).symm⟩

/-- What stands before an entry is what look-up passes by. -/
theorem NameMap.takeWhile_entries {α : Type} {m : NameMap α} {name : String} {value : α}
    {passed coming : List (String × α)} (h : m.entries = passed ++ (name, value) :: coming) :
    m.entries.takeWhile (fun x => x.1 ≠ name) = passed := by
  have hascending := m.ascending
  rw [h, List.pairwise_append] at hascending
  have hpassed : ∀ x ∈ passed, x.1 ≠ name := fun x hx =>
    String.ne_of_lt (hascending.2.2 x hx _ (List.mem_cons_self ..))
  rw [h, List.takeWhile_append_of_pos (by simpa using hpassed),
    List.takeWhile_cons_of_neg (by simp), List.append_nil]

/-- Entries under later keys are as they were when one is put into a map. -/
theorem NameMap.get?_insert_of_lt {α : Type} {m : NameMap α} {l : List (String × α)} {key : String}
    (hl : ∀ x ∈ l, m.get? x.1 = some x.2) (hkey : ∀ x ∈ l, key < x.1) (value : α) :
    ∀ x ∈ l, (m.insert key value).get? x.1 = some x.2 := fun x hx => by
  rw [NameMap.get?_insert, if_neg (String.ne_of_lt (hkey x hx))]
  exact hl x hx

namespace Engine

/-- Every save-file is there under its own name, and its settings are accepted. -/
def WellNamed (e : Engine ω) : Prop :=
  ∀ name f, e.registry.files.get? name = some f → f.name = name ∧ f.settings.check = .ok ()

theorem Sound.wellNamed {e : Engine ω} {d : Disk} (h : e.Sound d) : e.WellNamed := fun name f hf =>
  ⟨(h name f hf).named, (h name f hf).checked⟩

theorem wellNamed_of_entries {e : Engine ω} (h : ∀ x ∈ e.registry.files.entries,
    x.2.name = x.1 ∧ x.2.settings.check = .ok ()) : e.WellNamed := fun name f hf =>
  h (name, f) ((NameMap.mem_entries_iff _ name f).2 hf)

/-- A save-file that is put under its own name is well named. -/
theorem WellNamed.insert {e : Engine ω} (h : e.WellNamed) {name : String} {f : SaveFile ω}
    (hname : f.name = name) (hcheck : f.settings.check = .ok ()) :
    ({ e with registry := { e.registry with files := e.registry.files.insert name f } } :
      Engine ω).WellNamed := by
  intro other g hg
  rw [NameMap.get?_insert] at hg
  split at hg
  · next heq =>
    cases hg
    exact ⟨hname.trans heq, hcheck⟩
  · exact h other g hg

theorem WellNamed.no_slash {e : Engine ω} (h : e.WellNamed) {name : String} {f : SaveFile ω}
    (hf : e.registry.files.get? name = some f) : '/' ∉ f.name.toList :=
  FileSettings.no_slash_of_check (h name f hf).2

theorem WellNamed.of_mem {e : Engine ω} (h : e.WellNamed) {x : String × SaveFile ω}
    (hx : x ∈ e.registry.files.entries) : x.2.name = x.1 ∧ '/' ∉ x.2.name.toList :=
  have hf := NameMap.get?_of_mem hx
  ⟨(h x.1 x.2 hf).1, h.no_slash hf⟩

/-- The passes over the others keep the entries of a save-file. -/
theorem WellNamed.within_others {e : Engine ω} (h : e.WellNamed) (name : String) (now : Nat)
    (onlyChanged : Bool) (other : String) (g : SaveFile ω)
    (hg : e.registry.files.get? other = some g) (hne : other ≠ name) :
    Act.Within (.entries e.storage (IsLastingName name))
      (g.pass e.storage e.format now onlyChanged : Act ω ε _) := by
  obtain ⟨rfl, -⟩ := h other g hg
  exact g.within_pass_entries _ _ now onlyChanged (h.no_slash hg) hne.symm

/-- The world in which the pass over a save-file starts. -/
def passStart (e : Engine ω) (kind : PassKind) (now : Nat) (chosen : SaveFile ω → Bool)
    (name : String) (w : World ω) : World ω :=
  ((runPasses e.storage e.format kind now chosen
    (e.registry.files.entries.takeWhile fun x => x.1 ≠ name) e.registry.files :
      Act ω Failure _) w).2

/-- The result of a save-file's pass, and the save-file behind it. -/
def turn (e : Engine ω) (kind : PassKind) (now : Nat) (chosen : SaveFile ω → Bool) (f : SaveFile ω)
    (w : World ω) : Outcome Failure (PassResult × SaveFile ω) :=
  ((f.pass e.storage e.format now (kind = .tick) : Act ω Failure _)
    (e.passStart kind now chosen f.name w)).1

theorem WellNamed.passStart_sameSetting {e : Engine ω} (h : e.WellNamed) (kind : PassKind)
    (now : Nat) (chosen : SaveFile ω → Bool) (name : String) (w : World ω) :
    w.SameSetting (e.passStart kind now chosen name w) := by
  obtain ⟨names, files, w₁, hrun, hsweep⟩ := runPasses_sweep (ε := Failure) e.storage e.format kind
    now chosen (e.registry.files.entries.takeWhile fun x => x.1 ≠ name) e.registry.files w
    fun x hx => (h.of_mem ((List.takeWhile_sublist _).subset hx)).2
  unfold passStart
  rw [hrun]
  exact hsweep.sameSetting

/-- What a row of passes does to a save-file, beside what a frame of the others tells. -/
inductive Turn (e : Engine ω) (F : Act.Frame ω) (kind : PassKind) (now : Nat)
    (chosen : SaveFile ω → Bool) (f : SaveFile ω) (w : World ω) (names : List String)
    (f' : SaveFile ω) (w' : World ω) : Prop where
  /-- not chosen, it is as it was -/
  | out (out : chosen f = false) (same : f' = f) (unnamed : f.name ∉ names) (kept : F.keeps w w')
  /-- it is as its own pass left it -/
  | passed {result : PassResult} {w₁ : World ω} (taken : chosen f = true)
    (pass : (f.pass e.storage e.format now (kind = .tick) : Act ω Failure _)
      (e.passStart kind now chosen f.name w) = (.ok (result, f'), w₁))
    (before : F.keeps w (e.passStart kind now chosen f.name w)) (after : F.keeps w₁ w')
    (named : f.name ∈ names ↔ result = .saved)

/-- A row of passes from a save-file on begins with the pass over it, if it is chosen. -/
theorem runPasses_cons_turn (s : Storage) (format : Format) (kind : PassKind) (now : Nat)
    (chosen : SaveFile ω → Bool) {F : Act.Frame ω} {f : SaveFile ω}
    {rest : List (String × SaveFile ω)} {files : NameMap (SaveFile ω)} (w : World ω)
    (hslash : '/' ∉ f.name.toList)
    (hrest : ∀ x ∈ rest, x.1 ≠ f.name ∧ x.2.name = x.1 ∧ '/' ∉ x.2.name.toList ∧
      Act.Within F (x.2.pass s format now (kind = .tick) : Act ω Failure _))
    (hf : files.get? f.name = some f) :
    ∃ names files' w' f', (runPasses s format kind now chosen ((f.name, f) :: rest) files :
        Act ω Failure _) w = (.ok (names, files'), w') ∧ files'.get? f.name = some f' ∧
      (chosen f = false ∧ f' = f ∧ f.name ∉ names ∧ F.keeps w w' ∨
        chosen f = true ∧ ∃ result w₁,
          (f.pass s format now (kind = .tick) : Act ω Failure _) w = (.ok (result, f'), w₁) ∧
          (f.name ∈ names ↔ result = .saved) ∧ F.keeps w₁ w') := by
  have hbehind : ∀ x ∈ rest, x.1 ≠ f.name := fun x hx => (hrest x hx).1
  have hnamed : ∀ x ∈ rest, x.2.name = x.1 := fun x hx => (hrest x hx).2.1
  have hslashes : ∀ x ∈ rest, '/' ∉ x.2.name.toList := fun x hx => (hrest x hx).2.2.1
  have hwithin := within_runPasses (fun x hx => (hrest x hx).2.2.2) chosen
  cases hc : chosen f with
  | false =>
    obtain ⟨names, files', w', hrun, hsweep⟩ :=
      runPasses_sweep (ε := Failure) s format kind now chosen rest files w hslashes
    have hkept := hwithin files w
    rw [hrun] at hkept
    refine ⟨names, files', w', f, ?_, (hsweep.get?_of_not_mem hbehind).trans hf,
      Or.inl ⟨rfl, rfl, hsweep.not_mem_names hnamed hbehind, hkept⟩⟩
    rw [runPasses, if_neg (by simp [hc])]
    exact hrun
  | true =>
    obtain ⟨result, f', w₁, hpass, heffect, -⟩ :=
      SaveFile.pass_effect (ε := Failure) f s format now (kind = .tick) hslash w
    obtain ⟨w₂, hlogged, hcons⟩ := runPasses_cons_of_chosen hc hpass
    replace hcons := hcons f.name rest files
    obtain ⟨names, files', w', hrun, hsweep⟩ := runPasses_sweep (ε := Failure) s format kind now
      chosen rest (files.insert f.name f') w₂ hslashes
    have hunnamed := hsweep.not_mem_names hnamed hbehind
    have hname : f'.name = f.name := congrArg FileSettings.name heffect.settings.1
    have hkept := hwithin (files.insert f.name f') w₂
    rw [hrun] at hkept
    rw [Act.bind_of_ok hrun] at hcons
    refine ⟨_, files', w', f', hcons, ?_, Or.inr ⟨rfl, result, w₁, hpass, ?_, ?_⟩⟩
    · rw [hsweep.get?_of_not_mem hbehind, NameMap.get?_insert, if_pos rfl]
    · rw [hname]
      by_cases hr : result = .saved <;> simp [hr, hunnamed]
    · exact F.trans (F.alike hlogged.alike) hkept

/-- Every save-file has its turn, around which all is kept that the passes over the others keep. -/
theorem runPasses_turn {e : Engine ω} (h : e.WellNamed) (kind : PassKind) (now : Nat)
    (chosen : SaveFile ω → Bool) {name : String} {f : SaveFile ω}
    (hf : e.registry.files.get? name = some f) {F : Act.Frame ω}
    (hothers : ∀ other g, e.registry.files.get? other = some g → other ≠ name →
      Act.Within F (g.pass e.storage e.format now (kind = .tick) : Act ω Failure _))
    {names : List String} {files : NameMap (SaveFile ω)} {w w' : World ω}
    (hrun : (runPasses e.storage e.format kind now chosen e.registry.files.entries
      e.registry.files : Act ω Failure _) w = (.ok (names, files), w')) :
    ∃ f', files.get? name = some f' ∧ e.Turn F kind now chosen f w names f' w' := by
  obtain ⟨rest, hsplit, hbefore, hbehind⟩ := NameMap.entries_around hf
  obtain rfl : f.name = name := (h name f hf).1
  have hslash : '/' ∉ f.name.toList := h.no_slash hf
  have hall : ∀ x ∈ e.registry.files.entries, (x.2.name = x.1 ∧ '/' ∉ x.2.name.toList) ∧
      (x.1 ≠ f.name →
        Act.Within F (x.2.pass e.storage e.format now (kind = .tick) : Act ω Failure _)) :=
    fun x hx => ⟨h.of_mem hx, hothers x.1 x.2 (NameMap.get?_of_mem hx)⟩
  have hstart : e.passStart kind now chosen f.name w =
      ((runPasses e.storage e.format kind now chosen
        (e.registry.files.entries.takeWhile fun x => x.1 ≠ f.name) e.registry.files :
          Act ω Failure _) w).2 := rfl
  generalize e.registry.files.entries.takeWhile (fun x => x.1 ≠ f.name) = passed
    at hsplit hbefore hstart
  rw [hsplit] at hrun hall
  rw [List.forall_mem_append, List.forall_mem_cons] at hall
  -- the passes before it leave the save-file as it was
  obtain ⟨names₁, files₁, w₁, hrun₁, hsweep₁⟩ := runPasses_sweep (ε := Failure) e.storage e.format
    kind now chosen passed e.registry.files w fun x hx => (hall.1 x hx).1.2
  have hkept₁ := within_runPasses (fun x hx => (hall.1 x hx).2 (hbefore x hx)) chosen
    e.registry.files w
  replace hstart : e.passStart kind now chosen f.name w = w₁ := by rw [hstart, hrun₁]
  rw [hrun₁] at hkept₁
  have hout₁ := hsweep₁.not_mem_names (fun x hx => (hall.1 x hx).1.1) hbefore
  obtain ⟨names₂, files₂, w₂, f', hrun₂, hget₂, hturn⟩ := runPasses_cons_turn e.storage e.format
    kind now chosen w₁ hslash
    (fun x hx =>
      have hx' := hall.2.2 x hx
      ⟨hbehind x hx, hx'.1.1, hx'.1.2, hx'.2 (hbehind x hx)⟩)
    ((hsweep₁.get?_of_not_mem hbefore).trans hf)
  rw [runPasses_append hrun₁ hrun₂] at hrun
  cases hrun
  refine ⟨f', hget₂, ?_⟩
  rcases hturn with ⟨out, same, hout₂, hkept₂⟩ | ⟨hc, result, w₃, hpass, hmem, hafter⟩
  · refine .out out same ?_ (F.trans hkept₁ hkept₂)
    rw [List.mem_append, not_or]
    exact ⟨hout₁, hout₂⟩
  · refine .passed hc (hstart ▸ hpass) (hstart ▸ hkept₁) hafter ?_
    rw [List.mem_append, or_iff_right hout₁, hmem]

/-- Its turn changes nothing of a save-file but what it remembers. -/
theorem Turn.settings {e : Engine ω} {F : Act.Frame ω} {kind : PassKind} {now : Nat}
    {chosen : SaveFile ω → Bool} {f f' : SaveFile ω} {w w' : World ω} {names : List String}
    (h : e.Turn F kind now chosen f w names f' w') (hn : '/' ∉ f.name.toList) :
    f'.settings = f.settings ∧ f'.accessors = f.accessors := by
  cases h with
  | out _ same => exact same ▸ ⟨rfl, rfl⟩
  | passed _ pass => exact ((SaveFile.passRun_of_eq hn pass).effect hn).settings

/-! ## Rounds -/

/-- A tick or a flush. -/
def round (e : Engine ω) (kind : PassKind) (now : Nat) : Act ω ε (List String × Engine ω) :=
  match kind with
  | .tick => e.tick now
  | .flush => e.flush now

/-- Whether a round makes a pass over a save-file. -/
def chosen (e : Engine ω) (kind : PassKind) (now : Nat) (f : SaveFile ω) : Bool :=
  match kind with
  | .tick => f.settings.enabled && f.isDue now
  | .flush => f.settings.enabled || e.registry.settings.flushDisabled

theorem round_eq (e : Engine ω) (kind : PassKind) (now : Nat) :
    (e.round kind now : Act ω ε _) = e.passes kind now (e.chosen kind now) := by
  cases kind <;> rfl

/-- The same engine with save-files as passes left them. -/
def withFiles (e : Engine ω) (files : NameMap (SaveFile ω)) : Engine ω :=
  { e with registry := { e.registry with files } }

theorem round_of_disabled {e : Engine ω} (hoff : e.isEnabled = false) (kind : PassKind) (now : Nat)
    (w : World ω) : (e.round kind now : Act ω ε _) w = (.ok ([], e), w) := by
  rw [round_eq, passes, if_neg (by simp [hoff])]
  rfl

/-- A round of an enabled engine is a row of passes over all its save-files. -/
theorem round_of_enabled {e : Engine ω} (h : e.WellNamed) (hon : e.isEnabled = true)
    (kind : PassKind) (now : Nat) (w : World ω) :
    ∃ names files w', (runPasses e.storage e.format kind now (e.chosen kind now)
        e.registry.files.entries e.registry.files : Act ω Failure _) w = (.ok (names, files), w') ∧
      (e.round kind now : Act ω Failure _) w = (.ok (names, e.withFiles files), w') := by
  obtain ⟨names, files, w', hrun, -⟩ := runPasses_sweep (ε := Failure) e.storage e.format kind now
    (e.chosen kind now) e.registry.files.entries e.registry.files w fun x hx => (h.of_mem hx).2
  refine ⟨names, files, w', hrun, ?_⟩
  rw [round_eq, passes, if_pos hon, Act.bind_of_ok hrun]
  rfl

/-- Behind a row of passes every save-file is still there under its own name. -/
theorem WellNamed.withFiles {e : Engine ω} (h : e.WellNamed) {kind : PassKind} {now : Nat}
    {chosen : SaveFile ω → Bool} {names : List String} {files : NameMap (SaveFile ω)}
    {w w' : World ω} (hrun : (runPasses e.storage e.format kind now chosen e.registry.files.entries
      e.registry.files : Act ω Failure _) w = (.ok (names, files), w')) :
    (e.withFiles files).WellNamed := by
  intro name f' hget
  cases hf : e.registry.files.get? name with
  | none =>
    obtain ⟨names₁, files₁, w₁, hrun₁, hsweep⟩ := runPasses_sweep (ε := Failure) e.storage e.format
      kind now chosen e.registry.files.entries e.registry.files w fun x hx => (h.of_mem hx).2
    rw [hrun] at hrun₁
    cases hrun₁
    have hout : ∀ x ∈ e.registry.files.entries, x.1 ≠ name := fun x hx heq => by
      rw [← heq, NameMap.get?_of_mem hx] at hf
      cases hf
    exact absurd ((hsweep.get?_of_not_mem hout).symm.trans hget) (by simp [hf])
  | some f =>
    obtain ⟨hname, hcheck⟩ := h name f hf
    obtain ⟨f₁, hget₁, hturn⟩ :=
      runPasses_turn h kind now chosen hf (h.within_others name now (kind = .tick)) hrun
    obtain rfl : f' = f₁ := Option.some.inj (hget.symm.trans hget₁)
    have hsettings := (hturn.settings (h.no_slash hf)).1
    exact ⟨(congrArg FileSettings.name hsettings).trans hname, hsettings ▸ hcheck⟩

end Engine

end Keepsake
