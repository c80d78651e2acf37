import Keepsake.Proofs.Agreement
import Keepsake.Proofs.Turn
/-!
# Save-files do not influence each other

Two engines may have nothing in common but one save-file, its variables and what the folder has
under its names. The passes over the others, however many there are and however they end, leave
all of that alone, so in both engines the save-file's turn begins in worlds that agree for it, and
its pass comes to the same. A tick or a flush therefore saves it in both or in neither, and the
engines agree about it again.
-/

namespace Keepsake

variable {ω γ : Type}

/-- An accessor that leaves a part of the variables alone when it is read. -/
def Accessor.Spares (part : ω → γ) (a : Accessor ω) : Prop :=
  ∀ vars, part (a.get vars).2 = part vars

namespace Engine

/-- A part of the variables that the accessors of one save-file depend on, and no others touch. -/
structure Separates (e : Engine ω) (name : String) (part : ω → γ) : Prop where
  own : ∀ f, e.registry.files.get? name = some f → ∀ x ∈ f.accessors.entries, x.2.DependsOn part
  others : ∀ other g, e.registry.files.get? other = some g → other ≠ name →
    ∀ x ∈ g.accessors.entries, x.2.Spares part

/-- Engines with the same settings that agree about one save-file and all that concerns it. -/
structure AgreeOn (name : String) (part : ω → γ) (e e' : Engine ω) (w w' : World ω) : Prop where
  settings : e'.registry.settings = e.registry.settings
  storage : e'.storage = e.storage
  file : e'.registry.files.get? name = e.registry.files.get? name
  clock : w'.clock = w.clock
  entries : e.storage.SameEntries (IsLastingName name) w.disk w'.disk
  vars : part w'.vars = part w.vars

/-! ## Around the turn -/

section Turn

variable {e e' : Engine ω} {name : String} {part : ω → γ} {w w' : World ω}

/-- What the passes over the others leave alone. -/
def besides (s : Storage) (name : String) (part : ω → γ) : Act.Frame ω :=
  (Act.Frame.entries s (IsLastingName name)).both (.vars part)

theorem within_besides (h : e.WellNamed) (hs : e.Separates name part) (now : Nat)
    (onlyChanged : Bool) (other : String) (g : SaveFile ω)
    (hg : e.registry.files.get? other = some g) (hne : other ≠ name) :
    Act.Within (besides e.storage name part)
      (g.pass e.storage e.format now onlyChanged : Act ω Failure _) := by
  have hslash := h.no_slash hg
  exact (h.within_others name now onlyChanged other g hg hne).both
    (g.within_pass_vars _ _ now onlyChanged hslash (hs.others other g hg hne))

/-- Worlds that agree do so in what is kept of them. -/
theorem AgreeOn.of_besides (h : e.AgreeOn name part e' w w') {v v' : World ω}
    (hk : (besides e.storage name part).keeps w v)
    (hk' : (besides e.storage name part).keeps w' v') : e.AgreeOn name part e' v v' where
  settings := h.settings
  storage := h.storage
  file := h.file
  clock := hk'.1.2.clock.trans (h.clock.trans hk.1.2.clock.symm)
  entries := hk.1.1.symm.trans (h.entries.trans hk'.1.1)
  vars := hk'.2.trans (h.vars.trans hk.2.symm)

theorem AgreeOn.withFiles (h : e.AgreeOn name part e' w w') {files files' : NameMap (SaveFile ω)}
    (hfile : files'.get? name = files.get? name) :
    (e.withFiles files).AgreeOn name part (e'.withFiles files') w w' :=
  ⟨h.settings, h.storage, hfile, h.clock, h.entries, h.vars⟩

theorem AgreeOn.chosen_eq (h : e.AgreeOn name part e' w w') (kind : PassKind) (now : Nat) :
    e'.chosen kind now = e.chosen kind now := by
  funext f
  cases kind with
  | tick => rfl
  | flush =>
    unfold chosen
    rw [h.settings]

/-- From worlds that agree the pass over the save-file goes the same way. -/
theorem AgreeOn.pass_eq (h : e.AgreeOn name part e' w w') (houtlook : w.SameOutlook w')
    {f f₁ f₁' : SaveFile ω} (hname : f.name = name) (hn : '/' ∉ f.name.toList)
    (hown : ∀ x ∈ f.accessors.entries, x.2.DependsOn part) {now : Nat} {onlyChanged : Bool}
    {result result' : PassResult} {v v' : World ω}
    (hpass : (f.pass e.storage e.format now onlyChanged : Act ω Failure _) w
      = (.ok (result, f₁), v))
    (hpass' : (f.pass e'.storage e'.format now onlyChanged : Act ω Failure _) w'
      = (.ok (result', f₁'), v')) :
    result' = result ∧ f₁' = f₁ ∧ e.AgreeOn name part e' v v' := by
  subst hname
  have hworlds : w.Agree e.storage f.name part w' := ⟨houtlook, h.entries, h.vars⟩
  have hformat : e'.format = e.format := congrArg Settings.format h.settings
  rw [h.storage, hformat] at hpass'
  have hset : ∀ w : World ω, w.SameSetting
      ((f.pass e.storage e.format now onlyChanged : Act ω Failure _) w).2 := by
    intro w
    obtain ⟨_, _, _, hrun, -, hset⟩ :=
      SaveFile.pass_effect (ε := Failure) f e.storage e.format now onlyChanged hn w
    rwa [hrun]
  have hclock : v'.clock = v.clock := by
    have hv := (hset w).clock
    have hv' := (hset w').clock
    rw [hpass] at hv
    rw [hpass'] at hv'
    exact hv'.trans (h.clock.trans hv.symm)
  obtain ⟨hsame, hagree⟩ := SaveFile.respects_pass (ε := Failure) (s := e.storage) hn hown e.format
    now onlyChanged w w' hworlds
  rw [hpass, hpass'] at hsame hagree
  cases hsame
  exact ⟨rfl, rfl, h.settings, h.storage, h.file, hclock, hagree.entries, hagree.vars⟩

/-- Between worlds that agree the turns of the save-file come to the same. -/
theorem AgreeOn.turn_eq (h : e.AgreeOn name part e' w w') {f f₁ f₁' : SaveFile ω}
    (hname : f.name = name) (hn : '/' ∉ f.name.toList)
    (hown : ∀ x ∈ f.accessors.entries, x.2.DependsOn part) {kind : PassKind} {now : Nat}
    {chosen : SaveFile ω → Bool}
    (houtlook : (e.passStart kind now chosen name w).SameOutlook
      (e'.passStart kind now chosen name w'))
    {names names' : List String} {w₁ w₁' : World ω}
    (hturn : e.Turn (besides e.storage name part) kind now chosen f w names f₁ w₁)
    (hturn' : e'.Turn (besides e.storage name part) kind now chosen f w' names' f₁' w₁') :
    (name ∈ names' ↔ name ∈ names) ∧ f₁' = f₁ ∧ e.AgreeOn name part e' w₁ w₁' := by
  cases hturn with
  | out out same unnamed kept =>
    cases hturn' with
    | out _ same' unnamed' kept' =>
      rw [hname] at unnamed unnamed'
      exact ⟨iff_of_false unnamed' unnamed, same'.trans same.symm, h.of_besides kept kept'⟩
    | passed taken => exact absurd taken (by simp [out])
  | @passed result v taken pass before after named =>
    cases hturn' with
    | out out => exact absurd taken (by simp [out])
    | @passed result' v' _ pass' before' after' named' =>
      rw [hname] at pass pass' before before' named named'
      obtain ⟨rfl, rfl, hbehind⟩ :=
        (h.of_besides before before').pass_eq houtlook hname hn hown pass pass'
      exact ⟨named'.trans named.symm, rfl, hbehind.of_besides after after'⟩

/-- The same is to come of two worlds that do not tell calls apart by their numbers. -/
theorem passStart_sameOutlook (h : e.WellNamed) (h' : e'.WellNamed) (kind : PassKind) (now : Nat)
    (name : String) (hsteady : w.Steady) (hset : w.SameSetting w') :
    (e.passStart kind now (e.chosen kind now) name w).SameOutlook
      (e'.passStart kind now (e'.chosen kind now) name w') :=
  hsteady.sameOutlook (h.passStart_sameSetting kind now _ name w)
    (hset.trans (h'.passStart_sameSetting kind now _ name w'))

end Turn

/-! ## Rounds -/

/--
A tick or a flush does the same to a save-file in two engines that agree about it, whatever else
they hold: it is saved in both or in neither, it remembers the same, and the same is under its
names. They may differ in the other save-files, as long as their accessors do not touch its
variables when they are read; and the same must be to come when its pass begins, of faults and of
the clock.
-/
theorem round_agrees {e e' : Engine ω} {name : String} {part : ω → γ} {w w' : World ω}
    (h : e.WellNamed) (h' : e'.WellNamed) (hs : e.Separates name part)
    (hs' : e'.Separates name part) (hagree : e.AgreeOn name part e' w w') {f : SaveFile ω}
    (hf : e.registry.files.get? name = some f) (kind : PassKind) (now : Nat)
    (houtlook : (e.passStart kind now (e.chosen kind now) name w).SameOutlook
      (e'.passStart kind now (e'.chosen kind now) name w')) :
    ∃ names e₁ w₁ names' e₁' w₁',
      (e.round kind now : Act ω Failure _) w = (.ok (names, e₁), w₁) ∧
      (e'.round kind now : Act ω Failure _) w' = (.ok (names', e₁'), w₁') ∧
      (name ∈ names' ↔ name ∈ names) ∧
      (∃ f₁, e₁.registry.files.get? name = some f₁ ∧ e₁'.registry.files.get? name = some f₁) ∧
      (∀ file, IsLastingName name file →
        e.storage.content? w₁'.disk file = e.storage.content? w₁.disk file) ∧
      e₁.AgreeOn name part e₁' w₁ w₁' := by
  have hname : f.name = name := (h name f hf).1
  have hn := h.no_slash hf
  have hf' : e'.registry.files.get? name = some f := hagree.file.trans hf
  -- the same under all names follows from the same entries
  suffices ∃ names e₁ w₁ names' e₁' w₁',
      (e.round kind now : Act ω Failure _) w = (.ok (names, e₁), w₁) ∧
      (e'.round kind now : Act ω Failure _) w' = (.ok (names', e₁'), w₁') ∧
      (name ∈ names' ↔ name ∈ names) ∧ (e₁.registry.files.get? name).isSome = true ∧
      e₁.storage = e.storage ∧ e₁.AgreeOn name part e₁' w₁ w₁' by
    obtain ⟨names, e₁, w₁, names', e₁', w₁', hrun, hrun', hnamed, hthere, hstorage, hend⟩ := this
    obtain ⟨f₁, hf₁⟩ := Option.isSome_iff_exists.1 hthere
    refine ⟨names, e₁, w₁, names', e₁', w₁', hrun, hrun', hnamed, ⟨f₁, hf₁, hend.file.trans hf₁⟩,
      fun file hfile => ?_, hend⟩
    rw [← hstorage]
    exact hend.entries.content?_eq hfile (hfile.isEntryName (hname ▸ hn))
  cases hon : e.isEnabled with
  | false =>
    have hoff : e'.isEnabled = false := (congrArg Settings.enabled hagree.settings).trans hon
    exact ⟨[], e, w, [], e', w', round_of_disabled hon kind now w,
      round_of_disabled hoff kind now w', Iff.rfl, by rw [hf]; rfl, rfl, hagree⟩
  | true =>
    have hon' : e'.isEnabled = true := (congrArg Settings.enabled hagree.settings).trans hon
    obtain ⟨names, files, w₁, hrun, hround⟩ := round_of_enabled h hon kind now w
    obtain ⟨names', files', w₁', hrun', hround'⟩ := round_of_enabled h' hon' kind now w'
    obtain ⟨f₁, hget, hturn⟩ := runPasses_turn h kind now _ hf
      (within_besides h hs now (kind = .tick)) hrun
    obtain ⟨f₁', hget', hturn'⟩ := runPasses_turn h' kind now _ hf'
      (within_besides h' hs' now (kind = .tick)) hrun'
    rw [hagree.chosen_eq] at hturn' houtlook
    rw [hagree.storage] at hturn'
    obtain ⟨hnamed, rfl, hend⟩ :=
      hagree.turn_eq hname hn (hs.own f hf) houtlook hturn hturn'
    exact ⟨names, _, w₁, names', _, w₁', hround, hround', hnamed,
      Option.isSome_iff_exists.2 ⟨f₁', hget⟩, rfl, hend.withFiles (hget'.trans hget.symm)⟩

end Engine

/-! ## Two engines -/

namespace Sample

/-- A save-file with one accessor. -/
def single (name : String) (a : Accessor ω) : SaveFile ω :=
  ⟨FileSettings.named name, NameMap.empty.insert "k" a, none⟩

/-- An engine over some save-files, in the root of the disk. -/
def engineWith (files : List (SaveFile ω)) : Engine ω :=
  (engine []).withFiles (NameMap.ofList (files.map fun f => (f.name, f)))

/-- Reads the first of two variables. -/
def first : Accessor (Bool × Bool) := ⟨fun v => (.ok (.bool v.1), v), fun _ v => (.ok (), v)⟩

/-- Turns the second of two variables over and panics. -/
def breaking : Accessor (Bool × Bool) :=
  ⟨fun v => (.panic .other, (v.1, !v.2)), fun _ v => (.ok (), v)⟩

/-- An engine with one save-file. -/
def quiet : Engine (Bool × Bool) := engineWith [single "auto" first]

/-- An engine with another save-file, which comes first and cannot be read. -/
def crowded : Engine (Bool × Bool) := engineWith [single "auto" first, single "alarm" breaking]

/-- A disk with a save file of the other save-file. -/
def littered : Disk := Disk.bare.setFile [] (canonicalName "alarm") ByteArray.empty

theorem wellNamed_quiet : quiet.WellNamed := by
  refine Engine.wellNamed_of_entries ?_
  show ∀ x ∈ [("auto", single "auto" first)], _
  rw [List.forall_mem_singleton]
  exact ⟨rfl, except_eq_ok_of_isOk (by decide +kernel)⟩

theorem wellNamed_crowded : crowded.WellNamed := by
  refine Engine.wellNamed_of_entries ?_
  show ∀ x ∈ [("alarm", single "alarm" breaking), ("auto", single "auto" first)], _
  rw [List.forall_mem_cons, List.forall_mem_singleton]
  exact ⟨⟨rfl, except_eq_ok_of_isOk (by decide +kernel)⟩,
    rfl, except_eq_ok_of_isOk (by decide +kernel)⟩

theorem dependsOn_first : first.DependsOn Prod.fst := fun _ _ h =>
  ⟨congrArg (fun b => Outcome.ok (Value.bool b)) h, h⟩

/-- The accessors of the first save-file read the first variable. -/
theorem own_single {e : Engine (Bool × Bool)}
    (he : e.registry.files.get? "auto" = some (single "auto" first)) (f : SaveFile (Bool × Bool))
    (hf : e.registry.files.get? "auto" = some f) :
    ∀ x ∈ f.accessors.entries, x.2.DependsOn Prod.fst := by
  obtain rfl : single "auto" first = f := Option.some.inj (he.symm.trans hf)
  show ∀ x ∈ [("k", first)], _
  rw [List.forall_mem_singleton]
  exact dependsOn_first

theorem separates_quiet : quiet.Separates "auto" Prod.fst where
  own := own_single rfl
  others other g hg hne := by
    have hmem : (other, g) ∈ [("auto", single "auto" first)] :=
      (NameMap.mem_entries_iff _ other g).2 hg
    cases List.mem_singleton.1 hmem
    exact absurd rfl hne

theorem separates_crowded : crowded.Separates "auto" Prod.fst where
  own := own_single rfl
  others other g hg hne := by
    have hmem : (other, g) ∈ [("alarm", single "alarm" breaking), ("auto", single "auto" first)] :=
      (NameMap.mem_entries_iff _ other g).2 hg
    rcases List.mem_cons.1 hmem with heq | hmem
    · cases heq
      show ∀ x ∈ [("k", breaking)], _
      rw [List.forall_mem_singleton]
      exact fun _ => rfl
    · cases List.mem_singleton.1 hmem
      exact absurd rfl hne

theorem agreeOn_crowded : quiet.AgreeOn "auto" Prod.fst crowded (world (true, false) Disk.bare)
    (world (true, true) littered) where
  settings := rfl
  storage := rfl
  file := rfl
  clock := rfl
  entries := by
    have hplace : (Storage.plain "/").locate Disk.bare (canonicalName "alarm")
        = .ok (.entry [] (canonicalName "alarm")) :=
      except_eq_ok_of_toOption (by decide +kernel)
    have hput : (Storage.plain "/").SameEntries (· ≠ canonicalName "alarm") Disk.bare littered :=
      Storage.sameEntries_setFile (isEntryName_canonicalName (by decide)) hplace ByteArray.empty
    refine hput.mono fun file hfile => ?_
    rintro rfl
    exact absurd (hfile.injective .canonical) (by decide)
  vars := rfl

end Sample

/--
A save-file is saved alike alone and behind one whose accessor panics and whose file is there.
-/
theorem Engine.round_agrees_sample :
    ∃ names e₁ w₁ names' e₁' w₁',
      (Sample.quiet.round .tick 5 : Act _ Failure _) (Sample.world (true, false) Disk.bare)
        = (.ok (names, e₁), w₁) ∧
      (Sample.crowded.round .tick 5 : Act _ Failure _) (Sample.world (true, true) Sample.littered)
        = (.ok (names', e₁'), w₁') ∧
      ("auto" ∈ names' ↔ "auto" ∈ names) ∧
      (∃ f₁, e₁.registry.files.get? "auto" = some f₁ ∧
        e₁'.registry.files.get? "auto" = some f₁) ∧
      (∀ file, IsLastingName "auto" file →
        Sample.quiet.storage.content? w₁'.disk file
          = Sample.quiet.storage.content? w₁.disk file) ∧
      e₁.AgreeOn "auto" Prod.fst e₁' w₁ w₁' :=
  round_agrees Sample.wellNamed_quiet Sample.wellNamed_crowded Sample.separates_quiet
    Sample.separates_crowded Sample.agreeOn_crowded (f := Sample.single "auto" Sample.first) rfl
    .tick 5 (passStart_sameOutlook Sample.wellNamed_quiet Sample.wellNamed_crowded .tick 5 "auto"
      ⟨fun _ _ _ => rfl, fun _ _ => rfl, fun _ _ => rfl⟩ ⟨rfl, rfl, rfl, rfl⟩)

end Keepsake
