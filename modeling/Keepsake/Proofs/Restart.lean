import Keepsake.Proofs.Cells
import Keepsake.Proofs.Restore
import Keepsake.Proofs.Tick
/-!
# A restart restores every variable

One engine saves what its cells hold; another one, started over the same folder, loads it into
cells of its own. Nothing but the file connects the two, and the file does not keep the kind of an
empty row, so what is restored depends on what the new cells hold: their kinds bring the old ones
back.

The second engine may have other save-files, which are loaded before or after. They do not matter
as long as their accessors leave the cells alone and do not panic (`Accessor.Apart`).
-/

namespace Keepsake

variable {ω ε : Type}

/-! ## Storages that no fault strikes -/

namespace Storage

variable {s : Storage} {w : World ω}

theorem Calm.load_eq (h : s.Calm w) {name : String} {data : ByteArray}
    (hc : s.content? w.disk name = some data) : s.load name w = (.ok data, w.called) := by
  unfold load
  rw [h.call_eq, Act.get_bind, World.called_disk, read_eq_ok_iff.2 hc]
  rfl

/-- What a calm storage holds depends on its folder alone. -/
theorem content?_of_base {s s' : Storage} (h : s'.base = s.base) (d : Disk) (name : String) :
    s'.content? d name = s.content? d name := by
  unfold content? locate
  rw [h]

end Storage

/-! ## Operations apart from some cells -/

namespace Act

/-- Kept are save files, what no operation sets, and what stands under some numbers. -/
def Frame.apart (s : Storage) (numbers : Nat → Prop) : Frame Shelf where
  keeps w w' := s.SameSaves w.disk w'.disk ∧ w.SameSetting w' ∧
    ∀ n, numbers n → w'.vars[n]? = w.vars[n]?
  alike h := ⟨h.disk ▸ .refl s _, h.toSameSetting, fun _ _ => by rw [h.vars]⟩
  trans h h' := ⟨h.1.trans h'.1, h.2.1.trans h'.2.1, fun n hn => (h'.2.2 n hn).trans (h.2.2 n hn)⟩

/--
An operation that leaves save files and some numbers alone, and does not panic over a calm
storage.
-/
structure Apart {α : Type} (s : Storage) (numbers : Nat → Prop) (x : Act Shelf ε α) : Prop where
  within : Within (.apart s numbers) x
  regular : ∀ w, s.Calm w → (x w).1.IsRegular

section Apart

variable {α β δ : Type} {s : Storage} {numbers : Nat → Prop}

theorem apart_pure (a : α) : Apart s numbers (Pure.pure a : Act Shelf ε α) := ⟨within_pure a, nofun⟩

theorem apart_get (g : World Shelf → α) : Apart s numbers (Act.get g : Act Shelf ε α) :=
  ⟨within_get g, nofun⟩

theorem apart_ofExcept (x : Except ε α) : Apart s numbers (Act.ofExcept x : Act Shelf ε α) :=
  ⟨within_ofExcept x, by cases x <;> exact nofun⟩

theorem apart_tell (source : LogSource) (level : LogLevel) (message : String)
    (fields : List (String × LogValue)) :
    Apart s numbers (Act.tell source level message fields : Act Shelf ε Unit) :=
  ⟨within_tell _ _ _ _, nofun⟩

theorem apart_count (g : Metrics → Metrics) : Apart s numbers (Act.count g : Act Shelf ε Unit) :=
  ⟨within_count g, nofun⟩

theorem Apart.bind {x : Act Shelf ε α} {f : α → Act Shelf ε β} (hx : Apart s numbers x)
    (hf : ∀ a, Apart s numbers (f a)) : Apart s numbers (x >>= f) := by
  refine ⟨hx.within.bind fun a => (hf a).within, ?_⟩
  intro w hw
  have hwithin := hx.within w
  have hregular := hx.regular w hw
  rw [bind_apply]
  split
  · next a w' heq =>
    rw [heq] at hwithin
    exact (hf a).regular w' (hw.of_sameSetting hwithin.2.1)
  · exact nofun
  · next p w' heq => exact absurd (congrArg Prod.fst heq) (hregular p)

/-- Behind what never panics only answers and failures have to be provided for. -/
theorem apart_settle_bind {x : Act Shelf ε α} {f : Outcome ε α → Act Shelf δ β}
    (hx : Within (.apart s numbers) x) (hregular : ∀ w, (x w).1.IsRegular)
    (hf : ∀ o : Outcome ε α, o.IsRegular → Apart s numbers (f o)) :
    Apart s numbers (Act.settle x >>= f) := by
  constructor
  · intro w
    rw [settle_bind]
    exact (Frame.apart s numbers).trans (hx w) ((hf _ (hregular w)).within _)
  · intro w hw
    rw [settle_bind]
    exact (hf _ (hregular w)).regular _ (hw.of_sameSetting (hx w).2.1)

/-- An attempt at what does not panic has an answer. -/
theorem Apart.attempt_eq_ok {x : Act Shelf ε α} (h : Apart s numbers x) {w : World Shelf}
    (hw : s.Calm w) : ∃ r, (Act.attempt x : Act Shelf δ (Except ε α)) w = (.ok r, (x w).2) := by
  rcases attempt_cases (δ := δ) x w with ⟨r, heq, -⟩ | ⟨p, heq, -⟩
  · exact ⟨r, heq⟩
  · unfold Act.attempt at heq
    have hregular := h.regular w hw
    cases hx : x w with
    | mk o w' =>
      rw [hx] at heq hregular
      cases o with
      | ok a => cases heq
      | fail e => cases heq
      | panic p => exact absurd rfl (hregular p)

theorem Apart.attempt {x : Act Shelf ε α} (h : Apart s numbers x) :
    Apart s numbers (Act.attempt x : Act Shelf δ (Except ε α)) := by
  refine ⟨h.within.attempt, ?_⟩
  intro w hw
  obtain ⟨r, heq⟩ := h.attempt_eq_ok (δ := δ) hw
  rw [heq]
  exact nofun

end Apart

end Act

/-- An accessor that leaves some numbers alone and does not panic when it is written. -/
def Accessor.Apart (numbers : Nat → Prop) (a : Accessor Shelf) : Prop :=
  ∀ v shelf, (a.set v shelf).1.IsRegular ∧ ∀ n, numbers n → (a.set v shelf).2[n]? = shelf[n]?

section Loads

variable {s : Storage} {numbers : Nat → Prop}

theorem Storage.Calm.copy_isRegular {w : World ω} (h : s.Calm w) (source target : String) :
    (s.copy source target w).1.IsRegular := by
  unfold Storage.copy
  rw [h.call_eq]
  unfold Act.onDisk
  split <;> exact nofun

theorem apart_takeBackup {name : String} (hn : '/' ∉ name.toList) (mode : BackupMode)
    (stamp : Stamp) :
    Act.Apart s numbers (takeBackup s name mode stamp) := by
  constructor
  · intro w
    obtain ⟨heffect, hw⟩ := takeBackup_effect (s := s) hn mode stamp w
    exact ⟨heffect.sameSaves, hw.toSameSetting, fun _ _ => by rw [hw.vars]⟩
  · intro w hw
    cases takeBackup_probed s name mode stamp w with
    | unwanted _ _ run =>
      rw [run]
      exact nofun
    | struck _ struck => exact absurd hw struck
    | @copying target w₁ probed _ _ run =>
      have hcopy := (hw.of_sameSetting probed.alike.toSameSetting).copy_isRegular
        (canonicalName name) target
      rw [run, Act.bind_apply]
      split
      · exact nofun
      · exact nofun
      · next p w' heq => exact absurd (congrArg Prod.fst heq) (hcopy p)

theorem apart_probe (name : String) : Act.Apart s numbers (s.probe name : Act Shelf ε Bool) := by
  refine ⟨Storage.within_probe s name, fun w hw => ?_⟩
  rw [hw.probe_eq]
  exact nofun

theorem apart_storageLoad (name : String) :
    Act.Apart s numbers (s.load name : Act Shelf Failure ByteArray) := by
  constructor
  · intro w
    exact (Act.Frame.apart s numbers).alike (Storage.load_cases s name w).1
  · intro w hw
    unfold Storage.load
    rw [hw.call_eq, Act.get_bind]
    cases w.called.disk.read (s.locate w.called.disk name) <;> exact nofun

namespace SaveFile

variable {g : SaveFile Shelf}

theorem apart_applyEntries (ha : ∀ key a, g.accessors.get? key = some a → a.Apart numbers)
    (backup : Option String) (entries : List (String × Value)) :
    Act.Apart s numbers (g.applyEntries backup entries : Act Shelf ε LoadReport) := by
  induction entries with
  | nil => exact Act.apart_pure _
  | cons e rest ih =>
    obtain ⟨key, v⟩ := e
    unfold applyEntries
    cases hget : g.accessors.get? key with
    | none => exact (Act.apart_tell _ _ _ _).bind fun _ => ih.bind fun _ => Act.apart_pure _
    | some a =>
      have hset := ha key a hget v
      refine Act.apart_settle_bind (x := Act.onVars (a.set v))
        (fun w => ⟨.refl s _, ⟨rfl, rfl, rfl, rfl⟩, (hset w.vars).2⟩) (fun w => (hset w.vars).1)
        fun o ho => ?_
      cases o with
      | ok u => exact ih.bind fun _ => Act.apart_pure _
      | fail e =>
        exact (Act.apart_tell _ _ _ _).bind fun _ => (Act.apart_count _).bind fun _ =>
          ih.bind fun _ => Act.apart_pure _
      | panic p => exact absurd rfl (ho p)

theorem apart_backUpForLoad (hn : '/' ∉ g.name.toList) :
    Act.Apart s numbers (g.backUpForLoad s : Act Shelf ε _) := by
  refine (Act.apart_get _).bind fun now => (apart_takeBackup hn _ now).attempt.bind fun r => ?_
  cases r with
  | ok taken => exact Act.apart_pure _
  | error e => exact (Act.apart_tell _ _ _ _).bind fun _ => Act.apart_pure _

theorem apart_load (hn : '/' ∉ g.name.toList)
    (ha : ∀ key a, g.accessors.get? key = some a → a.Apart numbers) (format : Format) :
    Act.Apart s numbers (g.load s format) := by
  refine (apart_probe _).bind fun there => ?_
  split
  · refine (apart_backUpForLoad hn).bind fun backup => (apart_storageLoad _).bind fun data => ?_
    refine (Act.apart_ofExcept _).bind fun snapshot => ?_
    exact (apart_applyEntries ha backup snapshot.entries).bind fun r =>
      (Act.apart_tell _ _ _ _).bind fun _ => Act.apart_pure _
  · exact (Act.apart_tell _ _ _ _).bind fun _ => Act.apart_pure _

end SaveFile

end Loads

/-! ## The load of a save-file over cells -/

theorem Snapshot.get?_blurred (s : Snapshot) (key : String) :
    s.blurred.get? key = (s.get? key).map Value.blurred := by
  show NameMap.lookup key (s.entries.map _) = (NameMap.lookup key s.entries).map _
  induction s.entries with
  | nil => rfl
  | cons e rest ih =>
    obtain ⟨k, v⟩ := e
    rw [List.map_cons, NameMap.lookup, NameMap.lookup, ih]
    split <;> rfl

theorem Snapshot.keys_blurred (s : Snapshot) : s.blurred.keys = s.keys := by
  show (s.entries.map _).map _ = s.entries.map _
  rw [List.map_map]
  rfl

theorem Snapshot.keys_of_same_blurred {read held : Snapshot}
    (h : read.same held.blurred = true) : read.keys = held.keys :=
  (keys_eq_of_sameEntries h).trans held.keys_blurred

/-- Each entry that is read is what its key held, but for blurring. -/
theorem Snapshot.exists_of_same_blurred {read held : Snapshot} (h : read.same held.blurred = true)
    {e : String × Value} (he : e ∈ read.entries) :
    ∃ v, held.get? e.1 = some v ∧ e.2.same v.blurred = true := by
  obtain ⟨u, hu, hsame⟩ :=
    (sameEntries_iff read.ascending (keys_eq_of_sameEntries h)).1 h e he
  have hget : held.blurred.get? e.1 = some u := hu
  rw [get?_blurred] at hget
  obtain ⟨v, hv, rfl⟩ := Option.map_eq_some_iff.1 hget
  exact ⟨v, hv, hsame⟩

namespace SaveFile

theorem backUpForLoad_eq_ok {f : SaveFile Shelf} {s : Storage} (hn : '/' ∉ f.name.toList)
    {w : World Shelf} (hw : s.Calm w) :
    ∃ backup w', (f.backUpForLoad s : Act Shelf ε _) w = (.ok backup, w') := by
  have htake : Act.Apart s (fun _ => True) (takeBackup s f.name f.settings.backupMode w.now) :=
    apart_takeBackup hn _ _
  obtain ⟨r, hattempt⟩ := htake.attempt_eq_ok (δ := ε) hw
  unfold backUpForLoad
  rw [Act.get_bind, Act.bind_of_ok hattempt]
  cases r with
  | ok taken => exact ⟨taken, _, rfl⟩
  | error e =>
    obtain ⟨w', htell, -⟩ := Act.tell_apply (ε := ε) .loader .warn "backup before load failed"
      [("file", .text f.name), ("error", .text e.message)]
      (takeBackup s f.name f.settings.backupMode w.now w).2
    refine ⟨none, w', ?_⟩
    simp only []
    rw [Act.bind_of_ok htell]
    rfl

/--
From a calm storage a file that is there is loaded by writing the entries that are read of it.
-/
theorem load_of_content? {f : SaveFile Shelf} {s : Storage} {format : Format} {data : ByteArray}
    {read : Snapshot} {w : World Shelf} (hn : '/' ∉ f.name.toList) (hw : s.Calm w)
    (hcontent : s.content? w.disk (canonicalName f.name) = some data)
    (hdecode : format.decode data = .ok read) :
    ∃ backup w₁, w.SameSetting w₁ ∧ (∀ n : Nat, w₁.vars[n]? = w.vars[n]?) ∧
      ∀ r w₂, (f.applyEntries backup read.entries : Act Shelf Failure _) w₁ = (.ok r, w₂) →
        ∃ w₃, f.load s format w = (.ok (.loaded r), w₃) ∧ w₂.Alike w₃ := by
  obtain ⟨backup, w₁, hbackup⟩ := backUpForLoad_eq_ok (ε := Failure) hn hw.called
  have hapart : Act.Apart s (fun _ => True) (f.backUpForLoad s : Act Shelf Failure _) :=
    apart_backUpForLoad hn
  have hkeeps := hapart.within w.called
  rw [hbackup] at hkeeps
  obtain ⟨hsaves, hset, hvars⟩ := hkeeps
  replace hset : w.SameSetting w₁ := w.alike_called.toSameSetting.trans hset
  have hload := (hw.of_sameSetting hset).load_eq ((hsaves f.name hn).trans hcontent)
  refine ⟨backup, w₁.called, hset.trans w₁.alike_called.toSameSetting, fun n => hvars n trivial,
    fun r w₂ happly => ?_⟩
  obtain ⟨w₃, htell, ha⟩ := Act.tell_apply (ε := Failure) .loader .info "loaded save file"
    [("file", .text f.name), ("applied", .number r.applied.length),
     ("unknown", .number r.unknownKeys.length), ("failed", .number r.failed.length)] w₂
  refine ⟨w₃, ?_, ha⟩
  have hthere := hw.probe_eq (ε := Failure) (canonicalName f.name)
  rw [Storage.contains_eq, hcontent, Option.isSome_some] at hthere
  unfold load
  rw [Act.bind_of_ok hthere, if_pos rfl, Act.bind_of_ok hbackup, Act.bind_of_ok hload, hdecode,
    Act.ofExcept_ok_bind, Act.bind_of_ok happly, Act.bind_of_ok htell]
  rfl

section

variable {f : SaveFile Shelf} {number : String → Nat} {fresh held read : Snapshot} {w : World Shelf}

/--
Entries that are what the keys held, but for blurring, are all written to cells of the same kinds.
-/
theorem applyEntries_of_overCells (hcells : f.OverCells number w.vars fresh)
    (hkeys : fresh.keys = held.keys)
    (hinj : ∀ k ∈ held.keys, ∀ k' ∈ held.keys, number k = number k' → k = k')
    (hkinds : ∀ key v, held.get? key = some v → (fresh.valueAt key).kind = v.kind)
    (hread : read.same held.blurred = true) (backup : Option String) :
    ∃ w', (f.applyEntries backup read.entries : Act Shelf ε _) w
        = (.ok ⟨held.keys, [], [], backup⟩, w') ∧
      ∀ key v, held.get? key = some v → ∃ u, w'.vars.Holds (number key) u ∧ u.same v = true := by
  have hreadKeys := Snapshot.keys_of_same_blurred hread
  have hmem : ∀ e ∈ read.entries, e.1 ∈ held.keys := fun e he => hreadKeys ▸ List.mem_map_of_mem he
  have haccessors : ∀ e ∈ read.entries,
      ∃ a, f.accessors.get? e.1 = some a ∧ IsCellAccessor (number e.1) a := by
    intro e he
    have hkey : e.1 ∈ f.accessors.keys := hcells.keys ▸ hkeys ▸ hmem e he
    obtain ⟨a, ha⟩ := Option.isSome_iff_exists.1 ((NameMap.mem_keys_iff _ e.1).1 hkey)
    exact ⟨a, ha, hcells.accessors e.1 a ha⟩
  have hfresh : ∀ e ∈ read.entries, w.vars.Holds (number e.1) (fresh.valueAt e.1) := fun e he =>
    hcells.cells e.1 _ (Snapshot.get?_of_mem_keys (hkeys ▸ hmem e he))
  have hkindsRead : ∀ e ∈ read.entries,
      (fresh.valueAt e.1).kind = (Value.widenLike (fresh.valueAt e.1) e.2).kind := by
    intro e he
    obtain ⟨v, hv, hsame⟩ := Snapshot.exists_of_same_blurred hread he
    exact (Value.widenLike_blurred (hkinds e.1 v hv) hsame).1
  obtain ⟨w', happly, hheld, -⟩ := applyEntries_of_holds (ε := ε) number fresh.valueAt
    read.ascending haccessors (fun e he e' he' => hinj e.1 (hmem e he) e'.1 (hmem e' he'))
    hfresh hkindsRead backup
  refine ⟨w', hreadKeys ▸ happly, ?_⟩
  intro key v hv
  obtain ⟨e, he, rfl⟩ := List.mem_map.1 (hreadKeys ▸ NameMap.mem_keys_of_get? hv : key ∈ read.keys)
  obtain ⟨v', hv', hsame⟩ := Snapshot.exists_of_same_blurred hread he
  cases hv.symm.trans hv'
  exact ⟨_, hheld e he, (Value.widenLike_blurred (hkinds e.1 v hv) hsame).2⟩

/-- Cells that hold the same are the cells of the same save-file. -/
theorem OverCells.of_holds {shelf shelf' : Shelf} (h : f.OverCells number shelf fresh)
    (hheld : ∀ key ∈ fresh.keys, shelf'[number key]? = shelf[number key]?) :
    f.OverCells number shelf' fresh :=
  ⟨h.keys, h.accessors, fun key v hv =>
    (hheld key (NameMap.mem_keys_of_get? hv)).trans (h.cells key v hv)⟩

/--
A save-file over cells is loaded as a whole from a file that holds what the same keys held, if the
cells have the kinds of that.
-/
theorem load_of_overCells {s : Storage} {format : Format} {data : ByteArray}
    (hn : '/' ∉ f.name.toList)
    (hcells : f.OverCells number w.vars fresh) (hkeys : fresh.keys = held.keys)
    (hinj : ∀ k ∈ held.keys, ∀ k' ∈ held.keys, number k = number k' → k = k')
    (hkinds : ∀ key v, held.get? key = some v → (fresh.valueAt key).kind = v.kind)
    (hw : s.Calm w) (hcontent : s.content? w.disk (canonicalName f.name) = some data)
    (hdecode : format.decode data = .ok read) (hread : read.same held.blurred = true) :
    ∃ r w', f.load s format w = (.ok (.loaded r), w') ∧ r.isClean = true ∧ r.applied = held.keys ∧
      w.SameSetting w' ∧
      ∀ key v, held.get? key = some v → ∃ u, w'.vars.Holds (number key) u ∧ u.same v = true := by
  obtain ⟨backup, w₁, hset, hvars, hload⟩ := load_of_content? hn hw hcontent hdecode
  obtain ⟨w₂, happly, hheld⟩ := applyEntries_of_overCells (ε := Failure)
    (hcells.of_holds fun key _ => hvars (number key)) hkeys hinj hkinds hread backup
  obtain ⟨w₃, hrun, ha⟩ := hload _ w₂ happly
  have happlied := (f.applyEntries_sameButVars (ε := Failure) backup read.entries w₁).toSameSetting
  rw [happly] at happlied
  refine ⟨_, w₃, hrun, rfl, rfl, hset.trans (happlied.trans ha.toSameSetting), ?_⟩
  intro key v hv
  rw [ha.vars]
  exact hheld key v hv

end

end SaveFile

/-! ## Rows of loads -/

namespace Engine

theorem loadFiles_append {e : Engine ω} {l₁ l₂ : List (String × SaveFile ω)} {w w₁ w₂ : World ω}
    {outcomes₁ outcomes₂ : List (String × Except Failure LoadOutcome)}
    (h₁ : (e.loadFiles l₁ : Act ω ε _) w = (.ok outcomes₁, w₁))
    (h₂ : (e.loadFiles l₂ : Act ω ε _) w₁ = (.ok outcomes₂, w₂)) :
    (e.loadFiles (l₁ ++ l₂) : Act ω ε _) w = (.ok (outcomes₁ ++ outcomes₂), w₂) := by
  induction l₁ generalizing w outcomes₁ with
  | nil =>
    cases h₁
    exact h₂
  | cons x rest ih =>
    obtain ⟨name, g⟩ := x
    rw [List.cons_append]
    by_cases hon : g.settings.enabled = true
    · rcases Act.attempt_cases (δ := ε) (g.load e.storage e.format) w with
        ⟨outcome, hattempt, -⟩ | ⟨p, hattempt, -⟩
      · obtain ⟨w', -, hcons⟩ := loadFiles_cons_of_attempt hon hattempt
        rw [hcons] at h₁ ⊢
        obtain ⟨outcomes, w'', hrest, h₁⟩ := Act.bind_eq_ok h₁
        cases h₁
        rw [Act.bind_of_ok (ih hrest)]
        rfl
      · rw [loadFiles, if_pos hon, Act.bind_apply, hattempt] at h₁
        cases h₁
    · rw [loadFiles, if_neg hon] at h₁ ⊢
      exact ih h₁

variable {e : Engine Shelf} {numbers : Nat → Prop}

/-- Loads of save-files that are apart come to an end, one after the other. -/
theorem loadFiles_of_apart {l : List (String × SaveFile Shelf)}
    (hl : ∀ x ∈ l, '/' ∉ x.2.name.toList) (ha : ∀ x ∈ l, x.2.settings.enabled = true →
      ∀ key a, x.2.accessors.get? key = some a → a.Apart numbers)
    {w : World Shelf} (hw : e.storage.Calm w) :
    ∃ outcomes w', (e.loadFiles l : Act Shelf ε _) w = (.ok outcomes, w') ∧
      (Act.Frame.apart e.storage numbers).keeps w w' ∧
      ∀ o ∈ outcomes, ∃ x ∈ l, o.1 = x.2.name := by
  induction l generalizing w with
  | nil => exact ⟨[], w, rfl, Act.Frame.refl _ w, fun o ho => absurd ho List.not_mem_nil⟩
  | cons x rest ih =>
    obtain ⟨name, g⟩ := x
    rw [List.forall_mem_cons] at hl ha
    by_cases hon : g.settings.enabled = true
    · have hload := SaveFile.apart_load (s := e.storage) hl.1 (ha.1 hon) e.format
      obtain ⟨outcome, hattempt⟩ := hload.attempt_eq_ok (δ := ε) hw
      obtain ⟨w₁, ha₁, hcons⟩ := loadFiles_cons_of_attempt hon hattempt
      have hkeeps := (Act.Frame.apart e.storage numbers).trans (hload.within w)
        ((Act.Frame.apart e.storage numbers).alike ha₁)
      obtain ⟨outcomes, w', hrun, hkeeps', hnames⟩ := ih hl.2 ha.2 (hw.of_sameSetting hkeeps.2.1)
      refine ⟨(g.name, outcome) :: outcomes, w', ?_,
        (Act.Frame.apart e.storage numbers).trans hkeeps hkeeps', ?_⟩
      · rw [hcons, Act.bind_of_ok hrun]
        rfl
      · intro o ho
        rcases List.mem_cons.1 ho with rfl | ho
        · exact ⟨(name, g), List.mem_cons_self .., rfl⟩
        · obtain ⟨x, hx, hname⟩ := hnames o ho
          exact ⟨x, List.mem_cons_of_mem _ hx, hname⟩
    · obtain ⟨outcomes, w', hrun, hkeeps, hnames⟩ := ih hl.2 ha.2 hw
      refine ⟨outcomes, w', ?_, hkeeps, fun o ho => ?_⟩
      · rw [loadFiles, if_neg hon]
        exact hrun
      · obtain ⟨x, hx, hname⟩ := hnames o ho
        exact ⟨x, List.mem_cons_of_mem _ hx, hname⟩

/-- What is behind entries under other names is found. -/
theorem lookup_append_cons {α : Type} {l rest : List (String × α)} {name : String} (value : α)
    (h : ∀ x ∈ l, x.1 ≠ name) : NameMap.lookup name (l ++ (name, value) :: rest) = some value := by
  induction l with
  | nil => simp [NameMap.lookup]
  | cons x l ih =>
    rw [List.forall_mem_cons] at h
    obtain ⟨k, v⟩ := x
    rw [List.cons_append, NameMap.lookup, if_neg h.1]
    exact ih h.2

/--
The load of one save-file among those of all others, which are apart from some numbers: it starts
with these numbers and the save files as they were, and nothing behind it changes the numbers.
-/
theorem loadAll_around {f : SaveFile Shelf} {w : World Shelf} (hsound : e.Sound w.disk)
    (hon : e.isEnabled = true) (hf : e.registry.files.get? f.name = some f)
    (hfile : f.settings.enabled = true) (hw : e.storage.Calm w)
    (hothers : ∀ other g, e.registry.files.get? other = some g → other ≠ f.name →
      g.settings.enabled = true → ∀ key a, g.accessors.get? key = some a → a.Apart numbers) :
    ∃ w₁, (Act.Frame.apart e.storage numbers).keeps w w₁ ∧
      ∀ outcome w₂, (Act.attempt (f.load e.storage e.format) : Act Shelf ε _) w₁
          = (.ok outcome, w₂) → w₁.SameSetting w₂ →
        ∃ outcomes w₃, (e.loadAll : Act Shelf ε _) w = (.ok outcomes, w₃) ∧
          NameMap.lookup f.name outcomes = some outcome ∧
          ∀ n, numbers n → w₃.vars[n]? = w₂.vars[n]? := by
  have hslash := hsound.no_slash
  have hnamed : ∀ x ∈ e.registry.files.entries, x.2.name = x.1 := fun x hx =>
    (hsound x.1 x.2 (NameMap.get?_of_mem hx)).named
  have hapart : ∀ x ∈ e.registry.files.entries, x.1 ≠ f.name → x.2.settings.enabled = true →
      ∀ key a, x.2.accessors.get? key = some a → a.Apart numbers := fun x hx =>
    hothers x.1 x.2 (NameMap.get?_of_mem hx)
  obtain ⟨coming, hsplit, hbefore, hbehind⟩ := NameMap.entries_around hf
  generalize e.registry.files.entries.takeWhile (fun x => x.1 ≠ f.name) = passed
    at hsplit hbefore
  rw [hsplit, List.forall_mem_append, List.forall_mem_cons] at hslash hnamed hapart
  obtain ⟨outcomes₁, w₁, hrun₁, hkeeps₁, hnames₁⟩ := loadFiles_of_apart (ε := ε) hslash.1
    (fun x hx => hapart.1 x hx (hbefore x hx)) hw
  refine ⟨w₁, hkeeps₁, ?_⟩
  intro outcome w₂ hattempt hset
  obtain ⟨w', ha, hcons⟩ := loadFiles_cons_of_attempt hfile hattempt
  have hw' := hw.of_sameSetting (hkeeps₁.2.1.trans (hset.trans ha.toSameSetting))
  obtain ⟨outcomes₂, w₃, hrun₂, ⟨-, -, hvars₂⟩, -⟩ := loadFiles_of_apart (ε := ε) hslash.2.2
    (fun x hx => hapart.2.2 x hx (hbehind x hx)) hw'
  refine ⟨outcomes₁ ++ (f.name, outcome) :: outcomes₂, w₃, ?_, ?_, fun n hn => ?_⟩
  · rw [loadAll, if_pos hon, hsplit]
    refine loadFiles_append hrun₁ ?_
    rw [hcons, Act.bind_of_ok hrun₂]
    rfl
  · refine lookup_append_cons _ fun o ho => ?_
    obtain ⟨x, hx, hname⟩ := hnames₁ o ho
    rw [hname, hnamed.1 x hx]
    exact hbefore x hx
  · rw [hvars₂ n hn, ha.vars]

/-- A save file that was written holds the snapshot that its pass read. -/
theorem content?_of_mem_names {e e' : Engine ω} {w w' : World ω} (h : e.Sound w.disk)
    {kind : PassKind} {now : Nat} {chosen : SaveFile ω → Bool} {names : List String}
    (hsave : (e.passes kind now chosen : Act ω Failure _) w = (.ok (names, e'), w')) {name : String}
    (hname : name ∈ names) {f : SaveFile ω} (hf : e.registry.files.get? name = some f) :
    ∃ snapshot w₁ data,
      (f.readSnapshot : Act ω Failure Snapshot) (e.passStart kind now chosen name w)
        = (.ok snapshot, w₁) ∧
      e.format.encode snapshot = .ok data ∧
      e.storage.content? w'.disk (canonicalName name) = some data := by
  unfold passes at hsave
  split at hsave
  · obtain ⟨⟨names', files⟩, w₁, hrun, hrest⟩ := Act.bind_eq_ok hsave
    cases hrest
    obtain ⟨f', -, hleft⟩ := runPasses_left h kind now chosen hf hrun
    obtain rfl : f.name = name := (h name f hf).named
    cases hleft with
    | out out same unnamed content => exact absurd hname unnamed
    | @passed result d₁ taken turn before effect named after =>
      obtain rfl := named.1 hname
      cases effect with
      | @saved snapshot w₂ data d₂ d₃ read changed encoded backup puts =>
        exact ⟨snapshot, w₂, data, read, encoded, after.trans puts.written⟩
  · cases hsave
    cases hname

end Engine

/-! ## The restart -/

/--
What two engines over one folder, and the cells behind one of their save-files, have in common.
-/
structure Engine.Restart (e₁ e₂ : Engine Shelf) (f₁ f₂ : SaveFile Shelf) (held fresh : Snapshot) :
    Prop where
  folder : e₂.storage.base = e₁.storage.base
  format : e₂.format = e₁.format
  keys : f₂.accessors.keys = f₁.accessors.keys
  kinds : ∀ key v u, held.get? key = some v → fresh.get? key = some u → u.kind = v.kind

/--
A restart restores every variable. One engine has saved a save-file over cells; another one, in a
world with the same disk, has the same save-file over fresh cells of the same kinds. If the format
reads back what the first cells held, up to blurring, then loading all gives every fresh cell what
the first one held, and a report that names all keys.
-/
theorem Engine.loadAll_restores {e₁ e₁' e₂ : Engine Shelf} {w₁ w₁' w₂ : World Shelf}
    {f₁ f₂ : SaveFile Shelf} {name : String} {held fresh : Snapshot}
    {number₁ number₂ : String → Nat}
    (hreached₁ : e₁.Reached w₁) (hf₁ : e₁.registry.files.get? name = some f₁)
    {kind : PassKind} {now : Nat} {chosen : SaveFile Shelf → Bool} {names : List String}
    (hsave : (e₁.passes kind now chosen : Act Shelf Failure _) w₁ = (.ok (names, e₁'), w₁'))
    (hsaved : name ∈ names)
    (hheld : f₁.OverCells number₁ (e₁.passStart kind now chosen name w₁).vars held)
    (hround : ∃ data read, e₁.format.encode held = .ok data ∧ e₁.format.decode data = .ok read ∧
      read.same held.blurred = true)
    (hreached₂ : e₂.Reached w₂) (hon : e₂.isEnabled = true)
    (hf₂ : e₂.registry.files.get? name = some f₂) (hfile : f₂.settings.enabled = true)
    (hrestart : Restart e₁ e₂ f₁ f₂ held fresh) (hdisk : w₂.disk = w₁'.disk)
    (hcalm : e₂.storage.Calm w₂) (hfresh : f₂.OverCells number₂ w₂.vars fresh)
    (hunaliased : ∀ k ∈ held.keys, ∀ k' ∈ held.keys, number₂ k = number₂ k' → k = k')
    (hothers : ∀ other g, e₂.registry.files.get? other = some g → other ≠ name →
      g.settings.enabled = true → ∀ key a, g.accessors.get? key = some a →
        a.Apart fun n => ∃ k ∈ held.keys, number₂ k = n) :
    ∃ outcomes w₃ report, (e₂.loadAll : Act Shelf Failure _) w₂ = (.ok outcomes, w₃) ∧
      NameMap.lookup name outcomes = some (.ok (.loaded report)) ∧ report.isClean = true ∧
      report.applied = f₁.accessors.keys ∧
      ∀ key v, held.get? key = some v → ∃ u, w₃.vars.Holds (number₂ key) u ∧ u.same v = true := by
  obtain ⟨snapshot, w₀, data, hread, hencode, hcontent⟩ :=
    content?_of_mem_names hreached₁.sound hsave hsaved hf₁
  rw [SaveFile.readSnapshot_of_overCells hheld] at hread
  cases hread
  obtain ⟨data', read, hencode', hdecode, hsame⟩ := hround
  cases hencode.symm.trans hencode'
  obtain rfl : f₂.name = name := (hreached₂.sound _ f₂ hf₂).named
  have hslash : '/' ∉ f₂.name.toList := (hreached₂.sound _ f₂ hf₂).no_slash
  have hkeys : fresh.keys = held.keys := by
    rw [← hheld.keys, ← hfresh.keys, hrestart.keys]
  have hkinds : ∀ key v, held.get? key = some v → (fresh.valueAt key).kind = v.kind := by
    intro key v hv
    have hkey : key ∈ fresh.keys := hkeys ▸ NameMap.mem_keys_of_get? hv
    exact hrestart.kinds key v _ hv (Snapshot.get?_of_mem_keys hkey)
  -- the loads before leave the save file and the fresh cells as they were
  obtain ⟨w₃, ⟨hsaves, hset, hvars⟩, hrest⟩ := loadAll_around (ε := Failure) hreached₂.sound hon hf₂
    hfile hcalm hothers
  have hcontent₃ : e₂.storage.content? w₃.disk (canonicalName f₂.name) = some data := by
    rw [hsaves _ hslash, hdisk, Storage.content?_of_base hrestart.folder]
    exact hcontent
  have hfresh₃ : f₂.OverCells number₂ w₃.vars fresh :=
    hfresh.of_holds fun key hkey => hvars _ ⟨key, hkeys ▸ hkey, rfl⟩
  obtain ⟨report, w₄, hload, hclean, happlied, hset₄, hrestored⟩ := SaveFile.load_of_overCells
    hslash hfresh₃ hkeys hunaliased hkinds (hcalm.of_sameSetting hset) hcontent₃
    (hrestart.format ▸ hdecode) hsame
  have hattempt : (Act.attempt (f₂.load e₂.storage e₂.format) : Act Shelf Failure _) w₃
      = (.ok (.ok (.loaded report)), w₄) := by
    unfold Act.attempt
    rw [hload]
  -- the loads behind leave the restored cells as they are
  obtain ⟨outcomes, w₅, hrun, hlookup, hkept⟩ := hrest _ w₄ hattempt hset₄
  refine ⟨outcomes, w₅, report, hrun, hlookup, hclean, happlied.trans hheld.keys.symm,
    fun key v hv => ?_⟩
  obtain ⟨u, hu, hsameu⟩ := hrestored key v hv
  exact ⟨u, (hkept _ ⟨key, NameMap.mem_keys_of_get? hv, rfl⟩).trans hu, hsameu⟩

namespace Sample

/-- Always reads the same, and puts a new cell with what is written under number 2. -/
def replacing : Accessor Shelf :=
  ⟨fun shelf => (.ok (.bool true), shelf),
    fun v shelf => (.ok (), shelf.set 2 (.cell (.ofValue v)))⟩

/--
Two cells, one registered by itself and the other as the value of a variable. Another save-file is
loaded before theirs.
-/
def twoCells : Engine Shelf :=
  engine [.file (.named "alarm"), .accessor (some "alarm") "on" replacing,
    .accessor none "greeting" (.direct (Shelf.asVariable 0)),
    .ofVariable none "rates" (Shelf.asVariable 1) true []]

/-- The save-file that is loaded before. -/
def alarmFile : SaveFile Shelf := ⟨.named "alarm", NameMap.empty.insert "on" replacing, none⟩

def twoCellsFile : SaveFile Shelf :=
  ⟨.named "auto", (NameMap.empty.insert "greeting" (.direct (Shelf.asVariable 0))).insert "rates"
    (.ofValue (Shelf.asVariable 1)), none⟩

theorem registry_twoCells : twoCells.registry = ⟨{ settings with files := [] },
    (NameMap.empty.insert "alarm" alarmFile).insert "auto" twoCellsFile⟩ := by
  have hcheck : (FileSettings.named "alarm").check = .ok () :=
    except_eq_ok_of_isOk (by decide +kernel)
  have hfile : (registry : Registry Shelf).register (.file (.named "alarm")) =
      { (registry : Registry Shelf) with
        files := registry.files.insert "alarm" (SaveFile.ofSettings (.named "alarm")) } := by
    rw [Registry.register, Registry.add, Registry.addFile, hcheck]
    rfl
  rw [twoCells, engine, Registry.registerAll, List.foldl_cons, hfile]
  rfl

theorem format_twoCells : twoCells.format = .yaml := by
  rw [Engine.format, registry_twoCells]
  rfl

def numberOf (key : String) : Nat := if key = "greeting" then 0 else 1

def shelf (greeting : String) (rates : List Binary64) : Shelf :=
  [.cell (.ofValue (.text greeting)), .cell (.ofValue (.floats rates)),
    .cell (.ofValue (.bool false))]

def held (greeting : String) (rates : List Binary64) : Snapshot :=
  (NameMap.empty.insert "greeting" (.text greeting)).insert "rates" (.floats rates)

theorem overCells (greeting : String) (rates : List Binary64) :
    twoCellsFile.OverCells numberOf (shelf greeting rates) (held greeting rates) := by
  refine ⟨rfl, fun key a ha => ?_, fun key v hv => ?_⟩
  · rw [twoCellsFile, NameMap.get?_insert, NameMap.get?_insert, NameMap.get?_empty] at ha
    split at ha
    · next h =>
      cases ha
      exact h ▸ .ofValue
    · split at ha
      · next h =>
        cases ha
        exact h ▸ .direct
      · cases ha
  · rw [held, NameMap.get?_insert, NameMap.get?_insert, NameMap.get?_empty] at hv
    split at hv
    · next h =>
      cases hv
      exact h ▸ rfl
    · split at hv
      · next h =>
        cases hv
        exact h ▸ rfl
      · cases hv

theorem restart_twoCells (greeting greeting' : String) (rates rates' : List Binary64) :
    Engine.Restart twoCells twoCells twoCellsFile twoCellsFile (held greeting rates)
      (held greeting' rates') := by
  refine ⟨rfl, rfl, rfl, ?_⟩
  intro key v u hv hu
  rw [held, NameMap.get?_insert, NameMap.get?_insert, NameMap.get?_empty] at hv hu
  split at hv
  · next h =>
    rw [if_pos h] at hu
    cases hv
    cases hu
    rfl
  · next h =>
    rw [if_neg h] at hu
    split at hv
    · next h' =>
      rw [if_pos h'] at hu
      cases hv
      cases hu
      rfl
    · cases hv

/-- The save-file that is loaded before leaves both cells alone. -/
theorem apart_alarmFile (greeting : String) (rates : List Binary64) (key : String)
    (a : Accessor Shelf) (ha : alarmFile.accessors.get? key = some a) :
    a.Apart fun n => ∃ k ∈ (held greeting rates).keys, numberOf k = n := by
  rw [alarmFile, NameMap.get?_insert, NameMap.get?_empty] at ha
  split at ha
  · cases ha
    refine fun v s => ⟨nofun, ?_⟩
    rintro n ⟨k, -, rfl⟩
    have hne : 2 ≠ numberOf k := by
      unfold numberOf
      split <;> decide
    exact List.getElem?_set_ne hne
  · cases ha

theorem eq_alarmFile {name : String} {f : SaveFile Shelf}
    (hf : twoCells.registry.files.get? name = some f) (hne : name ≠ "auto") : f = alarmFile := by
  rw [registry_twoCells] at hf
  have hmem : (name, f) ∈ [("alarm", alarmFile), ("auto", twoCellsFile)] :=
    (NameMap.mem_entries_iff _ name f).2 hf
  rcases List.mem_cons.1 hmem with heq | hmem
  · exact (Prod.mk.inj heq).2
  · cases List.mem_singleton.1 hmem
    exact absurd rfl hne

/-- What the cells hold at the save is read back, but for the kind of the empty row. -/
theorem decode_encode_held : ∃ data read, twoCells.format.encode (held "hello" []) = .ok data ∧
    twoCells.format.decode data = .ok read ∧ read.same (held "hello" []).blurred = true := by
  rw [format_twoCells]
  have h : ((Format.yaml.encode (held "hello" [])).toOption.bind fun data =>
      (Format.yaml.decode data).toOption).map (·.same (held "hello" []).blurred) = some true := by
    decide +kernel
  obtain ⟨read, hread, hsame⟩ := Option.map_eq_some_iff.1 h
  obtain ⟨data, hencode, hdecode⟩ := Option.bind_eq_some_iff.1 hread
  exact ⟨data, read, except_eq_ok_of_toOption hencode, except_eq_ok_of_toOption hdecode, hsame⟩

/-- The world before the first engine's only save. -/
def savingWorld : World Shelf := world (shelf "hello" []) Disk.bare

theorem exists_tick_savingWorld : ∃ e' w', (twoCells.tick 5 : Act Shelf Failure _) savingWorld
    = (.ok (["alarm", "auto"], e'), w') := by
  have hnames : ((twoCells.tick 5 : Act Shelf Failure _) savingWorld).1.map (·.1)
      = .ok ["alarm", "auto"] := by decide +kernel
  cases hrun : (twoCells.tick 5 : Act Shelf Failure _) savingWorld with
  | mk o w' =>
    rw [hrun] at hnames
    obtain ⟨⟨names, e'⟩, rfl, hnames⟩ := Outcome.map_eq_ok hnames
    cases hnames
    exact ⟨e', w', rfl⟩

/-- The disk behind that save. -/
def savedDisk : Disk := ((twoCells.tick 5 : Act Shelf Failure _) savingWorld).2.disk

/-- The world of the second engine, whose cells hold something else. -/
def restartWorld : World Shelf := world (shelf "" [Binary64.ofNat 7]) savedDisk

end Sample

/--
An empty row of floats comes back into a cell that holds a row of one, behind a load that writes
elsewhere.
-/
theorem Engine.loadAll_restores_sample :
    ∃ outcomes w₃ report,
      (Sample.twoCells.loadAll : Act Shelf Failure _) Sample.restartWorld = (.ok outcomes, w₃) ∧
      NameMap.lookup "auto" outcomes = some (.ok (.loaded report)) ∧ report.isClean = true ∧
      report.applied = Sample.twoCellsFile.accessors.keys ∧
      ∀ key v, (Sample.held "hello" []).get? key = some v →
        ∃ u, w₃.vars.Holds (Sample.numberOf key) u ∧ u.same v = true := by
  have hfile : Sample.twoCells.registry.files.get? "auto" = some Sample.twoCellsFile := by
    rw [Sample.registry_twoCells]
    rfl
  obtain ⟨e', w', hsave⟩ := Sample.exists_tick_savingWorld
  have hdisk : Sample.restartWorld.disk = w'.disk := by
    rw [Sample.restartWorld, Sample.world, Sample.savedDisk, hsave]
  have hheld : Sample.twoCellsFile.OverCells Sample.numberOf
      (Sample.twoCells.passStart .tick 5 (SaveFile.takesTurn 5) "auto" Sample.savingWorld).vars
      (Sample.held "hello" []) := by
    have hstart : (Sample.twoCells.passStart .tick 5 (SaveFile.takesTurn 5) "auto"
        Sample.savingWorld).vars = Sample.shelf "hello" [] := by decide +kernel
    rw [hstart]
    exact Sample.overCells "hello" []
  rw [Engine.tick_eq] at hsave
  refine Engine.loadAll_restores (Sample.reached _ _) hfile hsave (by decide) hheld
    Sample.decode_encode_held (Sample.reached _ _) (by decide +kernel) hfile rfl
    (Sample.restart_twoCells ..) hdisk nofun (Sample.overCells "" [Binary64.ofNat 7])
    (by decide +kernel) fun other g hg hne _ => ?_
  rw [Sample.eq_alarmFile hg hne]
  exact Sample.apart_alarmFile "hello" []

end Keepsake
