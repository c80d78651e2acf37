import Keepsake.Proofs.Turn
import Keepsake.Proofs.Version
/-!
# Backups lose no version

A run is told in its smallest steps (`Engine.Step`), passes and loads over single save-files, so
the points between the passes of a tick are points of the run as well. Nobody but the engine
writes, and no copy of the save-file in question fails. What its accessors do, whether its writes
fail, what the clock says, and what becomes of the other save-files is left open: each of their
steps keeps the entries of this one.

Ticks, flushes and loads are made of such steps (`course_round`, `course_load`, `course_loadAll`).
-/

namespace Keepsake

variable {ω : Type}

namespace Engine

/-! ## Steps -/

/--
A step of a run in which no copy of one save-file fails: a pass over a save-file, a load of one, or
something that leaves the disk alone.
-/
inductive Step (name : String) : Engine ω → World ω → Engine ω → World ω → Prop where
  | pass {e : Engine ω} {w w' : World ω} {other : String} {f f' : SaveFile ω} {result : PassResult}
    (there : e.registry.files.get? other = some f) (kind : PassKind) (now : Nat)
    (run : (f.pass e.storage e.format now (kind = .tick) : Act ω Failure _) w
      = (.ok (result, f'), w'))
    (copies : other = name → f.PassCopies e.storage e.format (kind = .tick) w) :
    Step name e w (e.withFiles (e.registry.files.insert other f')) w'
  | load {e : Engine ω} {w : World ω} {other : String} {f : SaveFile ω}
    (there : e.registry.files.get? other = some f)
    (copies : other = name → f.LoadCopies e.storage w) :
    Step name e w e (f.load e.storage e.format w).2
  | meanwhile {e : Engine ω} {w w' : World ω} (disk : w'.disk = w.disk) : Step name e w e w'

/-- A run from one engine in its world to another, in any number of steps. -/
inductive Course (name : String) (e : Engine ω) (w : World ω) : Engine ω → World ω → Prop where
  | start : Course name e w e w
  | step {e₁ e₂ : Engine ω} {w₁ w₂ : World ω} (course : Course name e w e₁ w₁)
    (step : Step name e₁ w₁ e₂ w₂) : Course name e w e₂ w₂

variable {e e' e₁ : Engine ω} {name : String} {w w' w₁ : World ω} {f : SaveFile ω}

theorem Step.course (h : Step name e w e' w') : Course name e w e' w' := .step .start h

theorem Course.trans (h : Course name e w e₁ w₁) (h' : Course name e₁ w₁ e' w') :
    Course name e w e' w' := by
  induction h' with
  | start => exact h
  | step _ step ih => exact ih.step step

/-- What one save-file is at a point of a run. -/
structure Follows (e : Engine ω) (name : String) (f : SaveFile ω) (w : World ω) (e' : Engine ω)
    (w' : World ω) : Prop where
  wellNamed : e'.WellNamed
  storage : e'.storage = e.storage
  there : ∃ f', e'.registry.files.get? name = some f' ∧ f'.settings = f.settings
  versions : f.settings.backupMode = .timestamped → e.storage.KeepsVersions name w.disk w'.disk

/-- No step loses a version. -/
theorem Step.follows (h : Step name e w e' w') (he : e.WellNamed)
    (hf : e.registry.files.get? name = some f) : e.Follows name f w e' w' := by
  have hname : f.name = name := (he name f hf).1
  have hn := he.no_slash hf
  cases h with
  | @pass _ other g g' result there kind now run copies =>
    obtain ⟨rfl, hgcheck⟩ := he other g there
    have hgn := he.no_slash there
    have hrun := SaveFile.passRun_of_eq hgn run
    obtain ⟨hsettings, -⟩ := (hrun.effect hgn).settings
    have hg' : g'.name = g.name := congrArg FileSettings.name hsettings
    refine ⟨he.insert hg' (hsettings ▸ hgcheck), rfl, ?_, fun hmode => ?_⟩
    · show ∃ f', (e.registry.files.insert g.name g').get? name = some f' ∧ _
      rw [NameMap.get?_insert]
      split
      · next heq =>
        cases hf.symm.trans (heq ▸ there)
        exact ⟨g', rfl, hsettings⟩
      · exact ⟨f, hf, rfl⟩
    · by_cases heq : g.name = name
      · cases hf.symm.trans (heq ▸ there)
        exact heq ▸ hrun.keepsVersions hn hmode (copies heq)
      · have hkept := g.within_pass_entries (ε := Failure) e.storage e.format now (kind = .tick)
          hgn (Ne.symm heq) w
        rw [run] at hkept
        exact .of_sameEntries (hname ▸ hn) hkept.1
  | @load other g there copies =>
    obtain ⟨rfl, -⟩ := he other g there
    refine ⟨he, rfl, ⟨f, hf, rfl⟩, fun hmode => ?_⟩
    by_cases heq : g.name = name
    · cases hf.symm.trans (heq ▸ there)
      exact heq ▸ SaveFile.load_keepsVersions hn hmode (copies heq) e.format
    · exact .of_sameEntries (hname ▸ hn) (g.within_load_entries e.storage e.format
        (he.no_slash there) (Ne.symm heq) w).1
  | meanwhile disk =>
    exact ⟨he, rfl, ⟨f, hf, rfl⟩, fun _ => disk ▸ .refl e.storage name w.disk⟩

/-- No run loses a version. -/
theorem Course.follows (h : Course name e w e' w') (he : e.WellNamed)
    (hf : e.registry.files.get? name = some f) : e.Follows name f w e' w' := by
  induction h with
  | start => exact ⟨he, rfl, ⟨f, hf, rfl⟩, fun _ => .refl e.storage name w.disk⟩
  | step _ step ih =>
    obtain ⟨f₁, hf₁, hsettings⟩ := ih.there
    have hstep := step.follows ih.wellNamed hf₁
    obtain ⟨f₂, hf₂, hsettings₂⟩ := hstep.there
    refine ⟨hstep.wellNamed, hstep.storage.trans ih.storage,
      ⟨f₂, hf₂, hsettings₂.trans hsettings⟩, fun hmode => ?_⟩
    have hversions := hstep.versions (hsettings ▸ hmode)
    rw [ih.storage] at hversions
    exact (ih.versions hmode).trans hversions

/-! ## Operations are runs -/

theorem course_runPasses (h : e.WellNamed) {kind : PassKind} {now : Nat}
    {chosen : SaveFile ω → Bool} {l : List (String × SaveFile ω)}
    (hl : ∀ x ∈ l, e.registry.files.get? x.1 = some x.2)
    (hascending : l.Pairwise fun a b => a.1 < b.1)
    (hcopies : ∀ passed f coming, l = passed ++ (name, f) :: coming → chosen f = true →
      f.PassCopies e.storage e.format (kind = .tick) ((runPasses e.storage e.format kind now chosen
        passed e.registry.files : Act ω Failure _) w).2) :
    ∃ names files w', (runPasses e.storage e.format kind now chosen l e.registry.files :
        Act ω Failure _) w = (.ok (names, files), w') ∧ Course name e w (e.withFiles files) w' := by
  induction l generalizing e w with
  | nil => exact ⟨[], e.registry.files, w, rfl, .start⟩
  | cons x rest ih =>
    obtain ⟨other, g⟩ := x
    rw [List.forall_mem_cons] at hl
    rw [List.pairwise_cons] at hascending
    obtain ⟨hgname, hgcheck⟩ := h other g hl.1
    cases hc : chosen g with
    | false =>
      obtain ⟨names, files, w', hrun, hcourse⟩ := ih h hl.2 hascending.2
        fun passed f coming hsplit hf => by
          have hcopy := hcopies ((other, g) :: passed) f coming (by rw [hsplit]; rfl) hf
          rwa [runPasses, if_neg (by simp [hc])] at hcopy
      refine ⟨names, files, w', ?_, hcourse⟩
      rw [runPasses, if_neg (by simp [hc])]
      exact hrun
    | true =>
      have hgn := h.no_slash hl.1
      obtain ⟨result, g', w₁, hpass, heffect, -⟩ :=
        SaveFile.pass_effect (ε := Failure) g e.storage e.format now (kind = .tick) hgn w
      obtain ⟨w₂, hlogged, hcons⟩ := runPasses_cons_of_chosen hc hpass
      have hstep : Step name e w (e.withFiles (e.registry.files.insert other g')) w₁ :=
        .pass hl.1 kind now hpass fun heq => by
          subst heq
          exact hcopies [] g rest rfl hc
      have hg' : g'.name = other := (congrArg FileSettings.name heffect.settings.1).trans hgname
      have hnamed := h.insert hg' (heffect.settings.1 ▸ hgcheck)
      obtain ⟨names, files, w', hrun, hcourse⟩ :=
        ih (e := e.withFiles (e.registry.files.insert other g')) (w := w₂) hnamed
          (NameMap.get?_insert_of_lt hl.2 hascending.1 g') hascending.2
          (fun passed f coming hsplit hf => by
            have hcopy := hcopies ((other, g) :: passed) f coming (by rw [hsplit]; rfl) hf
            rw [hcons, Act.bind_pure_snd] at hcopy
            exact hcopy)
      refine ⟨if result = .saved then g'.name :: names else names, files, w', ?_,
        (hstep.course.step (.meanwhile hlogged.alike.disk)).trans hcourse⟩
      rw [hcons]
      exact Act.bind_of_ok hrun

/-- The copy that a round takes of a save-file, if it comes to one, does not fail. -/
def RoundCopies (e : Engine ω) (name : String) (kind : PassKind) (now : Nat) (w : World ω) : Prop :=
  ∀ f, e.registry.files.get? name = some f → e.chosen kind now f = true →
    f.PassCopies e.storage e.format (kind = .tick)
      (e.passStart kind now (e.chosen kind now) name w)

theorem course_round (h : e.WellNamed) {kind : PassKind} {now : Nat}
    (hcopies : e.RoundCopies name kind now w) :
    ∃ names e' w', (e.round kind now : Act ω Failure _) w = (.ok (names, e'), w') ∧
      Course name e w e' w' := by
  cases hon : e.isEnabled with
  | false => exact ⟨[], e, w, round_of_disabled hon kind now w, .start⟩
  | true =>
    obtain ⟨names, files, w', hrun, hround⟩ := round_of_enabled h hon kind now w
    have hcopy : ∀ passed f coming, e.registry.files.entries = passed ++ (name, f) :: coming →
        e.chosen kind now f = true →
          f.PassCopies e.storage e.format (kind = .tick) ((runPasses e.storage e.format kind now
            (e.chosen kind now) passed e.registry.files : Act ω Failure _) w).2 := by
      intro passed f coming hsplit hf
      have hget : e.registry.files.get? name = some f :=
        NameMap.get?_of_mem (e := (name, f)) (by rw [hsplit]; simp)
      have hstart := hcopies f hget hf
      unfold passStart at hstart
      rwa [NameMap.takeWhile_entries hsplit] at hstart
    obtain ⟨names₁, files₁, w₁, hrun₁, hcourse⟩ :=
      course_runPasses h (fun x hx => NameMap.get?_of_mem hx) e.registry.files.ascending hcopy
    rw [hrun] at hrun₁
    cases hrun₁
    exact ⟨names, _, w', hround, hcourse⟩

theorem course_load (other : String)
    (hcopies : other = name → ∀ f, e.registry.files.get? name = some f →
      f.LoadCopies e.storage w) :
    Course name e w e (e.load other w).2 := by
  unfold load
  cases hget : e.registry.files.get? other with
  | none => exact .start
  | some g => exact (Step.load hget fun heq => hcopies heq g (heq ▸ hget)).course

theorem course_loadFiles {l : List (String × SaveFile ω)}
    (hl : ∀ x ∈ l, e.registry.files.get? x.1 = some x.2)
    (hcopies : ∀ passed f coming outcomes w₁, l = passed ++ (name, f) :: coming →
      f.settings.enabled = true → (e.loadFiles passed : Act ω Failure _) w = (.ok outcomes, w₁) →
        f.LoadCopies e.storage w₁) :
    Course name e w e ((e.loadFiles l : Act ω Failure _) w).2 := by
  induction l generalizing w with
  | nil => exact .start
  | cons x rest ih =>
    obtain ⟨other, g⟩ := x
    rw [List.forall_mem_cons] at hl
    cases hon : g.settings.enabled with
    | false =>
      have hskip : ∀ l, (e.loadFiles ((other, g) :: l) : Act ω Failure _) w = e.loadFiles l w := by
        intro l
        rw [loadFiles, if_neg (by simp [hon])]
      rw [hskip]
      refine ih hl.2 fun passed f coming outcomes w₁ hsplit hf hrun => ?_
      exact hcopies ((other, g) :: passed) f coming outcomes w₁ (by rw [hsplit]; rfl) hf
        ((hskip passed).trans hrun)
    | true =>
      have hstep : Step name e w e (g.load e.storage e.format w).2 := .load hl.1 fun heq => by
        subst heq
        exact hcopies [] g rest [] w rfl hon rfl
      rcases Act.attempt_cases (δ := Failure) (g.load e.storage e.format) w with
        ⟨r, hr, -⟩ | ⟨p, hp, -⟩
      · obtain ⟨w₂, halike, hcons⟩ := loadFiles_cons_of_attempt hon hr
        rw [hcons, Act.bind_pure_snd]
        refine (hstep.course.step (.meanwhile halike.disk)).trans (ih hl.2 ?_)
        intro passed f coming outcomes w₁ hsplit hf hrun
        refine hcopies ((other, g) :: passed) f coming ((g.name, r) :: outcomes) w₁
          (by rw [hsplit]; rfl) hf ?_
        rw [hcons, Act.bind_of_ok hrun]
        rfl
      · rw [loadFiles, if_pos hon, Act.bind_apply, hp]
        exact hstep.course

/-- The copy that loading all takes of a save-file, if it comes to one, does not fail. -/
def LoadsCopy (e : Engine ω) (name : String) (w : World ω) : Prop :=
  ∀ f, e.registry.files.get? name = some f → f.settings.enabled = true → ∀ outcomes w₁,
    (e.loadFiles (e.registry.files.entries.takeWhile fun x => x.1 ≠ name) : Act ω Failure _) w
      = (.ok outcomes, w₁) → f.LoadCopies e.storage w₁

theorem course_loadAll (hcopies : e.LoadsCopy name w) :
    Course name e w e ((e.loadAll : Act ω Failure _) w).2 := by
  unfold loadAll
  split
  · refine course_loadFiles (fun x hx => NameMap.get?_of_mem hx) ?_
    intro passed f coming outcomes w₁ hsplit hf hrun
    rw [← NameMap.takeWhile_entries hsplit] at hrun
    have hget : e.registry.files.get? name = some f :=
      NameMap.get?_of_mem (e := (name, f)) (by rw [hsplit]; simp)
    exact hcopies f hget hf outcomes w₁ hrun
  · obtain ⟨w₁, htell, ha⟩ := Act.tell_apply (ε := Failure) .engine .debug
      "autosave disabled, skipping load" [] w
    rw [Act.bind_of_ok htell]
    exact (Step.meanwhile ha.disk).course

/-! ## At every point of every run -/

/--
The rotating backup holds what the next save replaces and what the next load reads, and what is done
to other save-files leaves it alone.
-/
structure Rotates (e : Engine ω) (name : String) (w : World ω) : Prop where
  save : ∀ f, e.registry.files.get? name = some f → ∀ kind now f' w',
    f.PassCopies e.storage e.format (kind = PassKind.tick) w →
    (f.pass e.storage e.format now (kind = .tick) : Act ω Failure _) w = (.ok (.saved, f'), w') →
      ∀ data, e.storage.content? w.disk (canonicalName name) = some data →
        e.storage.content? w'.disk (rotatingName name) = some data
  load : ∀ f, e.registry.files.get? name = some f → ∀ w₁ taken,
    (e.storage.probe (canonicalName name) : Act ω Failure Bool) w = (.ok true, w₁) →
    (f.backUp e.storage w₁).1 = .ok taken →
      ∀ data, e.storage.content? w.disk (canonicalName name) = some data →
        e.storage.content? (f.load e.storage e.format w).2.disk (rotatingName name) = some data
  round : ∀ kind now, e.RoundCopies name kind now w → ∀ names e' w',
    (e.round kind now : Act ω Failure _) w = (.ok (names, e'), w') → name ∈ names →
      ∀ data, e.storage.content? w.disk (canonicalName name) = some data →
        e.storage.content? w'.disk (rotatingName name) = some data
  others : ∀ other g, e.registry.files.get? other = some g → other ≠ name →
    (∀ now onlyChanged, e.storage.SameEntries (IsLastingName name) w.disk
      ((g.pass e.storage e.format now onlyChanged : Act ω Failure _) w).2.disk) ∧
    e.storage.SameEntries (IsLastingName name) w.disk (g.load e.storage e.format w).2.disk

/-- Behind a tick or a flush that saved the save-file, its backup is that of its own pass. -/
theorem content?_rotatingName_of_round (h : e.WellNamed)
    (hf : e.registry.files.get? name = some f) (hmode : f.settings.backupMode = .rotating)
    {kind : PassKind} {now : Nat} (hcopies : e.RoundCopies name kind now w) {names : List String}
    (hround : (e.round kind now : Act ω Failure _) w = (.ok (names, e'), w')) (hin : name ∈ names)
    {data : ByteArray} (hc : e.storage.content? w.disk (canonicalName name) = some data) :
    e.storage.content? w'.disk (rotatingName name) = some data := by
  obtain ⟨rfl, -⟩ := h name f hf
  have hn := h.no_slash hf
  cases hon : e.isEnabled with
  | false =>
    rw [round_of_disabled hon] at hround
    cases hround
    exact absurd hin List.not_mem_nil
  | true =>
    obtain ⟨names₁, files, w₁, hrun, hround₁⟩ := round_of_enabled h hon kind now w
    rw [hround] at hround₁
    cases hround₁
    obtain ⟨f', -, hturn⟩ :=
      runPasses_turn h kind now _ hf (h.within_others f.name now (kind = .tick)) hrun
    cases hturn with
    | out _ _ unnamed => exact absurd hin unnamed
    | @passed result w₂ taken pass before after named =>
      obtain rfl := named.1 hin
      rw [after.1.content?_eq (.backup .rotating) (isEntryName_rotatingName hn)]
      refine (SaveFile.passRun_of_eq hn pass).content?_rotatingName hn hmode
        (hcopies f hf taken) ?_
      rw [before.1.content?_eq .canonical (isEntryName_canonicalName hn)]
      exact hc

theorem rotates_of_mode (h : e.WellNamed) (hf : e.registry.files.get? name = some f)
    (hmode : f.settings.backupMode = .rotating) (w : World ω) : e.Rotates name w := by
  obtain ⟨rfl, -⟩ := h name f hf
  have hn := h.no_slash hf
  constructor
  · intro g hg kind now f' w' hcopies hpass data hc
    cases hf.symm.trans hg
    exact (SaveFile.passRun_of_eq hn hpass).content?_rotatingName hn hmode hcopies hc
  · intro g hg w₁ taken hfound hcopied data hc
    cases hf.symm.trans hg
    exact SaveFile.content?_rotatingName_of_load hn hmode hfound hcopied hc e.format
  · intro kind now hcopies names e' w' hround hin data hc
    exact content?_rotatingName_of_round h hf hmode hcopies hround hin hc
  · intro other g hg hne
    obtain ⟨rfl, -⟩ := h other g hg
    have hgn := h.no_slash hg
    exact ⟨fun now onlyChanged =>
        (g.within_pass_entries (ε := Failure) e.storage e.format now onlyChanged hgn hne.symm w).1,
      (g.within_load_entries e.storage e.format hgn hne.symm w).1⟩

/--
Backups lose no version of a save-file, wherever a run has led. With timestamped backups what its
save file holds is there at every later point, in the save file or in a backup, and every backup
stays as it is. A rotating backup holds what the last save replaced or the last load read. Ticks,
flushes and loads are parts of runs, if no copy of the save-file fails in them.
-/
theorem versions_kept (h : e.WellNamed) (hf : e.registry.files.get? name = some f) (w : World ω) :
    ∀ e₁ w₁, Course name e w e₁ w₁ →
      (f.settings.backupMode = .timestamped → ∀ e₂ w₂, Course name e₁ w₁ e₂ w₂ →
        e.storage.KeepsVersions name w₁.disk w₂.disk) ∧
      (f.settings.backupMode = .rotating → e₁.Rotates name w₁) ∧
      (∀ kind now, e₁.RoundCopies name kind now w₁ → ∃ names e₂ w₂,
        (e₁.round kind now : Act ω Failure _) w₁ = (.ok (names, e₂), w₂) ∧
          Course name e₁ w₁ e₂ w₂) ∧
      (∀ other,
        (other = name → ∀ f, e₁.registry.files.get? name = some f →
          f.LoadCopies e₁.storage w₁) →
          Course name e₁ w₁ e₁ (e₁.load other w₁).2) ∧
      (e₁.LoadsCopy name w₁ → Course name e₁ w₁ e₁ ((e₁.loadAll : Act ω Failure _) w₁).2) := by
  intro e₁ w₁ hcourse
  have hpoint := hcourse.follows h hf
  obtain ⟨f₁, hf₁, hsettings⟩ := hpoint.there
  refine ⟨fun hmode e₂ w₂ hlater => ?_, fun hmode => ?_, fun kind now => ?_, fun other => ?_, ?_⟩
  · rw [← hpoint.storage]
    exact (hlater.follows hpoint.wellNamed hf₁).versions (hsettings ▸ hmode)
  · exact rotates_of_mode hpoint.wellNamed hf₁ (hsettings ▸ hmode) w₁
  · exact course_round hpoint.wellNamed
  · exact course_load other
  · exact course_loadAll

end Engine

namespace Sample

/-- The world behind a first tick, with another text in the cell. -/
def rewritten : World Cell := { ticked.2 with vars := Cell.ofValue (.text "bye") }

theorem roundCopies_rewritten : ticked.1.RoundCopies "auto" .flush 6 rewritten := by
  have hchecked : ((ticked.1.registry.files.get? "auto").all fun f =>
      match (f.backUp ticked.1.storage ((f.readSnapshot : Act Cell Failure Snapshot)
        (ticked.1.passStart .flush 6 (ticked.1.chosen .flush 6) "auto" rewritten)).2).1 with
      | .fail _ => false
      | _ => true) = true := by decide +kernel
  intro f hf _ snapshot w₁ data hr _ _ e he
  simp [hf, hr, he] at hchecked

end Sample

/-- The text of a first tick is not lost when a flush writes another one. -/
theorem Engine.versions_kept_sample :
    (Sample.ticked.1.storage.content? Sample.ticked.2.disk (canonicalName "auto")).isSome = true ∧
      ∃ names e' w',
        (Sample.ticked.1.round .flush 6 : Act Cell Failure _) Sample.rewritten
          = (.ok (names, e'), w') ∧
        Sample.ticked.1.storage.KeepsVersions "auto" Sample.ticked.2.disk w'.disk := by
  have hmode : (Sample.ticked.1.registry.files.get? "auto").map (·.settings.backupMode)
    = some .timestamped := by decide +kernel
  obtain ⟨f, hf, hmode⟩ := Option.map_eq_some_iff.1 hmode
  have hmeanwhile : Step "auto" Sample.ticked.1 Sample.ticked.2 Sample.ticked.1 Sample.rewritten :=
    .meanwhile rfl
  have hkept := versions_kept Sample.reached_ticked.sound.wellNamed hf Sample.ticked.2
    Sample.ticked.1 Sample.rewritten hmeanwhile.course
  obtain ⟨names, e', w', hround, hcourse⟩ := hkept.2.2.1 .flush 6 Sample.roundCopies_rewritten
  exact ⟨by decide +kernel, names, e', w', hround, hkept.1 hmode e' w' hcourse⟩

end Keepsake
