import Keepsake.Proofs.LastSave
import Keepsake.Variable.Record
/-!
# A registration adds all of it or nothing

Each operation on a registry gives a new registry or a failure, so it is told here what it does in
place: registers one accessor after the other, and what was registered before a failure stays
(`Registry.addInPlace`). That comes to the same, since registering a variable looks at all of its
keys first: none that is taken, by an accessor or by another one of them, means that none is refused
later (`exists_addPlanned`).

So a variable is registered exactly if its keys are distinct and new (`addVariable_iff`), and then
its value or one of its fields is read and written under each of them (`Accessor.Wraps`). A registry
that was made from settings stays well formed, whatever is registered.
-/

namespace Keepsake

variable {ω : Type}

/-! ## Maps from lists with distinct names -/

namespace NameMap

variable {α : Type}

theorem nodup_entries (m : NameMap α) : m.entries.Nodup :=
  m.ascending.imp fun hlt heq => String.ne_of_lt hlt (congrArg Prod.fst heq)

/-- What is put under a new name comes to the other entries. -/
theorem entries_insert_perm (m : NameMap α) {name : String} (h : name ∉ m.keys) (value : α) :
    (m.insert name value).entries.Perm ((name, value) :: m.entries) := by
  have hnew : (name, value) ∉ m.entries := fun hmem => h (List.mem_map_of_mem hmem)
  refine (List.perm_ext_iff_of_nodup (nodup_entries _)
    (List.nodup_cons.2 ⟨hnew, m.nodup_entries⟩)).2 fun e => ?_
  obtain ⟨k, v⟩ := e
  rw [mem_entries_iff, get?_insert, List.mem_cons, mem_entries_iff]
  split
  · next hk =>
    subst hk
    have hnone : m.get? name ≠ some v := fun hv => h (mem_keys_of_get? hv)
    simp [hnone, eq_comm]
  · next hk => simp [Ne.symm hk]

/-- Of entries with distinct names none is lost. -/
theorem entries_ofList_perm {l : List (String × α)} (h : (l.map (·.1)).Nodup) :
    (ofList l).entries.Perm l := by
  suffices ∀ m : NameMap α, (∀ name ∈ m.keys, name ∉ l.map (·.1)) →
      (l.foldl (fun m e => m.insert e.1 e.2) m).entries.Perm (m.entries ++ l) from
    this empty nofun
  induction l with
  | nil =>
    intro m _
    rw [List.append_nil]
    exact List.Perm.refl _
  | cons e rest ih =>
    intro m hm
    rw [List.map_cons, List.nodup_cons] at h
    have hinsert := m.entries_insert_perm (fun hmem => hm e.1 hmem (List.mem_cons_self ..)) e.2
    refine (ih h.2 (m.insert e.1 e.2) fun name hname hrest => ?_).trans ?_
    · rcases List.mem_cons.1 ((hinsert.map Prod.fst).mem_iff.1 hname) with rfl | hname
      · exact h.1 hrest
      · exact hm name hname (List.mem_cons_of_mem _ hrest)
    · exact (hinsert.append_right rest).trans List.perm_middle.symm

end NameMap

/-! ## What accessors read and write -/

namespace Accessor

/--
What an accessor reads and writes. A value that does not consist of integers is written as it is,
and one that does is first widened to what is read just then, unless that fails.
-/
structure Wraps (a : Accessor ω) (read : ω → Attempt Value × ω)
    (write : Value → ω → Attempt Unit × ω) : Prop where
  reads : ∀ vars, a.get vars = read vars
  writes : ∀ v vars, v.isWhole = false → a.set v vars = write v vars
  widens : ∀ v vars target vars', v.isWhole = true → read vars = (.ok target, vars') →
    a.set v vars = write (Value.widenLike target v) vars'
  unread : ∀ v vars e vars', v.isWhole = true → read vars = (.fail e, vars') →
    a.set v vars = write v vars'
  panics : ∀ v vars p vars', v.isWhole = true → read vars = (.panic p, vars') →
    a.set v vars = (.panic p, vars')

section Wraps

variable {a b : Accessor ω} {read : ω → Attempt Value × ω} {write : Value → ω → Attempt Unit × ω}

theorem wraps_of_widens (hget : a.get = read) (hset : a.set = widenAndWrite read write) :
    a.Wraps read write where
  reads vars := congrFun hget vars
  writes v vars h := by rw [hset, widenAndWrite_of_not_whole h]
  widens v vars target vars' h hread := by rw [hset, widenAndWrite_of_ok h hread]
  unread v vars e vars' h hread := by rw [hset, widenAndWrite_of_fail h hread]
  panics v vars p vars' h hread := by rw [hset, widenAndWrite_of_panic h hread]

theorem wraps_ofValue (x : Variable ω) : (ofValue x).Wraps x.value x.setValue :=
  wraps_of_widens (get_ofValue x) (set_ofValue x)

theorem wraps_ofField (x : Variable ω) (field : String) :
    (ofField x field).Wraps (x.field field) (x.setField field) :=
  wraps_of_widens (get_ofField x field) (set_ofField x field)

/-- There is nothing else to an accessor. -/
theorem Wraps.unique (ha : a.Wraps read write) (hb : b.Wraps read write) : a = b := by
  have hget : a.get = b.get := funext fun vars => (ha.reads vars).trans (hb.reads vars).symm
  have hset : a.set = b.set := by
    funext v vars
    cases hwhole : v.isWhole with
    | false => rw [ha.writes v vars hwhole, hb.writes v vars hwhole]
    | true =>
      cases hread : read vars with
      | mk answer vars' =>
        cases answer with
        | ok target => rw [ha.widens v vars _ _ hwhole hread, hb.widens v vars _ _ hwhole hread]
        | fail e => rw [ha.unread v vars _ _ hwhole hread, hb.unread v vars _ _ hwhole hread]
        | panic p => rw [ha.panics v vars _ _ hwhole hread, hb.panics v vars _ _ hwhole hread]
  obtain ⟨get, set⟩ := a
  cases hget
  cases hset
  rfl

end Wraps

end Accessor

/-! ## Registries from settings -/

theorem Settings.nodup_of_checkFiles {seen : List String} {l : List FileSettings}
    (h : checkFiles seen l = .ok ()) :
    (l.map (·.name)).Nodup ∧ ∀ f ∈ l, f.name ∉ seen := by
  induction l generalizing seen with
  | nil => exact ⟨List.nodup_nil, nofun⟩
  | cons f rest ih =>
    obtain ⟨u, -, h⟩ := except_bind_eq_ok h
    split at h
    · cases h
    · next hnew =>
      obtain ⟨hnodup, hunseen⟩ := ih h
      refine ⟨List.nodup_cons.2 ⟨fun hmem => ?_, hnodup⟩, List.forall_mem_cons.2 ⟨hnew, ?_⟩⟩
      · obtain ⟨g, hg, hname⟩ := List.mem_map.1 hmem
        exact hunseen g hg (hname ▸ List.mem_cons_self ..)
      · exact fun g hg hseen => hunseen g hg (List.mem_cons_of_mem _ hseen)

namespace Registry

/-- Each save-file stands under its own name, and its settings are accepted. -/
def WellFormed (r : Registry ω) : Prop :=
  ∀ name f, r.files.get? name = some f → f.name = name ∧ f.settings.check = .ok ()

/-- A registry from settings has one save-file for each entry in their list. -/
theorem entries_ofSettings {d : Disk} {settings : Settings} {r : Registry ω}
    (h : ofSettings d settings = .ok r) :
    r.files.entries.Perm (settings.files.map fun g => (g.name, SaveFile.ofSettings g)) := by
  obtain ⟨u, hcheck, h⟩ := except_bind_eq_ok h
  cases h
  apply NameMap.entries_ofList_perm
  rw [List.map_map]
  exact (Settings.nodup_of_checkFiles (checkFiles_of_check hcheck)).1

theorem wellFormed_registerAll {d : Disk} {settings : Settings} {r : Registry ω}
    (h : ofSettings d settings = .ok r) (l : List (Registration ω)) :
    (r.registerAll l).WellFormed := by
  have hsound := registerAll_sound (sound_ofSettings h (.plain "/") .yaml d) l
  exact fun name f hf => ⟨(hsound name f hf).named, (hsound name f hf).checked⟩

/-! ## The keys of a variable -/

/-- The keys that a variable is registered under: its name, for the value, and those of fields. -/
def variableKeys (name : String) (saveValue : Bool) (fields : List String) : List String :=
  (if saveValue then [name] else []) ++
    fields.map fun field => if field = valueField then name else name ++ "." ++ field

/-- What is read and written under each of the keys of a variable. -/
inductive ReadsUnder (x : Variable ω) (name : String) (saveValue : Bool) (fields : List String) :
    String → Accessor ω → Prop where
  /-- the value, as asked -/
  | whole {a : Accessor ω} (asked : saveValue = true) (wraps : a.Wraps x.value x.setValue) :
    ReadsUnder x name saveValue fields name a
  /-- the value, as the field that stands for it -/
  | value {a : Accessor ω} (asked : valueField ∈ fields) (wraps : a.Wraps x.value x.setValue) :
    ReadsUnder x name saveValue fields name a
  | field {field : String} {a : Accessor ω} (asked : field ∈ fields) (other : field ≠ valueField)
    (wraps : a.Wraps (x.field field) (x.setField field)) :
    ReadsUnder x name saveValue fields (name ++ "." ++ field) a

theorem map_fst_plannedKeys (name : String) (saveValue : Bool) (fields : List String) :
    (plannedKeys name saveValue fields).map (·.1) = variableKeys name saveValue fields := by
  rw [plannedKeys, variableKeys, List.map_append, List.map_map]
  cases saveValue <;> rfl

theorem readsUnder_iff {x : Variable ω} {name : String} {saveValue : Bool} {fields : List String}
    {key : String} {a : Accessor ω} :
    ReadsUnder x name saveValue fields key a ↔
      ∃ field, (key, field) ∈ plannedKeys name saveValue fields ∧ a = Accessor.of x field := by
  unfold plannedKeys
  constructor
  · intro h
    cases h with
    | whole asked wraps =>
      exact ⟨none, by simp [asked], wraps.unique (Accessor.wraps_ofValue x)⟩
    | value asked wraps =>
      refine ⟨some valueField, List.mem_append_right _ (List.mem_map.2 ⟨_, asked, ?_⟩),
        wraps.unique (Accessor.wraps_ofValue x)⟩
      rw [keyOf, if_pos rfl]
    | @field field _ asked other wraps =>
      refine ⟨some field, List.mem_append_right _ (List.mem_map.2 ⟨_, asked, ?_⟩), ?_⟩
      · rw [keyOf, if_neg other]
      · rw [Accessor.of, if_neg other]
        exact wraps.unique (Accessor.wraps_ofField x field)
  · rintro ⟨field, hmem, rfl⟩
    rcases List.mem_append.1 hmem with hmem | hmem
    · split at hmem
      · next asked =>
        cases List.mem_singleton.1 hmem
        exact .whole asked (Accessor.wraps_ofValue x)
      · cases hmem
    · obtain ⟨f, hf, heq⟩ := List.mem_map.1 hmem
      cases heq
      by_cases hv : f = valueField
      · subst hv
        rw [keyOf, if_pos rfl, Accessor.of, if_pos rfl]
        exact .value hf (Accessor.wraps_ofValue x)
      · rw [keyOf, if_neg hv, Accessor.of, if_neg hv]
        exact .field hf hv (Accessor.wraps_ofField x f)

/-! ## Looking at all keys first -/

variable {f : SaveFile ω} {planned : List (String × Option String)}

/-- No key is taken if they are distinct, and new to the save-file and to what was seen. -/
theorem firstTaken?_eq_none_iff {seen : List String} :
    firstTaken? f seen planned = none ↔ (planned.map (·.1)).Nodup ∧
      ∀ key ∈ planned.map (·.1), key ∉ seen ∧ f.accessors.contains key = false := by
  induction planned generalizing seen with
  | nil => simp [firstTaken?]
  | cons p rest ih =>
    obtain ⟨key, field⟩ := p
    unfold firstTaken?
    split
    · next htaken =>
      refine ⟨nofun, ?_⟩
      rintro ⟨-, hfree⟩
      obtain ⟨hunseen, hnew⟩ := hfree key (List.mem_cons_self ..)
      rw [hnew] at htaken
      exact absurd htaken (by simpa using hunseen)
    · next hfree =>
      have hkey : key ∉ seen ∧ f.accessors.contains key = false := by simpa using hfree
      rw [ih, List.map_cons, List.nodup_cons, List.forall_mem_cons]
      constructor
      · rintro ⟨hdistinct, hrest⟩
        refine ⟨⟨fun hmem => (hrest key hmem).1 (List.mem_cons_self ..), hdistinct⟩, hkey, ?_⟩
        exact fun k hk =>
          ⟨fun hseen => (hrest k hk).1 (List.mem_cons_of_mem _ hseen), (hrest k hk).2⟩
      · rintro ⟨⟨hnot, hdistinct⟩, -, hrest⟩
        refine ⟨hdistinct, fun k hk => ⟨fun hmem => ?_, (hrest k hk).2⟩⟩
        rcases List.mem_cons.1 hmem with rfl | hseen
        · exact hnot hk
        · exact (hrest k hk).1 hseen

/-- Registers planned keys one after the other; what was registered before a failure stays. -/
def addPlannedInPlace (x : Variable ω) (f : SaveFile ω) :
    List (String × Option String) → Except Failure Unit × SaveFile ω
  | [] => (.ok (), f)
  | (key, field) :: rest =>
    match f.addAccessor key (Accessor.of x field) with
    | .ok f => addPlannedInPlace x f rest
    | .error e => (.error e, f)

/-- Keys that are distinct and new are all registered. -/
theorem exists_addPlanned (x : Variable ω) (hdistinct : (planned.map (·.1)).Nodup)
    (hnew : ∀ key ∈ planned.map (·.1), f.accessors.contains key = false) :
    ∃ f', addPlanned x f planned = .ok f' ∧ addPlannedInPlace x f planned = (.ok (), f') ∧
      ∀ key a, f'.accessors.get? key = some a ↔
        f.accessors.get? key = some a ∨
          ∃ field, (key, field) ∈ planned ∧ a = Accessor.of x field := by
  induction planned generalizing f with
  | nil => exact ⟨f, rfl, rfl, by simp⟩
  | cons p rest ih =>
    obtain ⟨key, field⟩ := p
    rw [List.map_cons, List.nodup_cons] at hdistinct
    rw [List.map_cons, List.forall_mem_cons] at hnew
    have hadd : f.addAccessor key (Accessor.of x field)
        = .ok { f with accessors := f.accessors.insert key (Accessor.of x field) } := by
      rw [SaveFile.addAccessor, hnew.1]
      rfl
    obtain ⟨f', hall, hplace, hget⟩ := ih
      (f := { f with accessors := f.accessors.insert key (Accessor.of x field) }) hdistinct.2
      fun other hother => by
        have hne : key ≠ other := fun heq => hdistinct.1 (heq ▸ hother)
        have hkept := hnew.2 other hother
        rw [NameMap.contains] at hkept ⊢
        rwa [NameMap.get?_insert, if_neg hne]
    refine ⟨f', ?_, ?_, fun other a => ?_⟩
    · rw [addPlanned, hadd]
      exact hall
    · rw [addPlannedInPlace, hadd]
      exact hplace
    · rw [hget, NameMap.get?_insert]
      split
      · next heq =>
        subst heq
        have hunused : f.accessors.get? key ≠ some a := by
          rw [NameMap.contains, Option.isSome_eq_false_iff, Option.isNone_iff_eq_none] at hnew
          rw [hnew.1]
          nofun
        have honly : ∀ field', (key, field') ∉ rest := fun field' hmem =>
          hdistinct.1 (List.mem_map.2 ⟨_, hmem, rfl⟩)
        simp [hunused, honly, eq_comm]
      · next hne => simp [Ne.symm hne]

/-! ## Registering in place -/

/--
Registers in place: gives the failure, if there is one, and the registry as it is then. What was
done before a failure stays done.
-/
def addInPlace (r : Registry ω) : Registration ω → Except Failure Unit × Registry ω
  | .file g =>
    match g.check with
    | .error e => (.error e, r)
    | .ok () =>
      if r.files.contains g.name then (.error (duplicateName g.name), r)
      else (.ok (), { r with files := r.files.insert g.name (SaveFile.ofSettings g) })
  | .accessor file key a =>
    match r.fileFor file with
    | .error e => (.error e, r)
    | .ok (name, f) =>
      match f.addAccessor key a with
      | .error e => (.error e, r)
      | .ok f => (.ok (), { r with files := r.files.insert name f })
  | .ofVariable file name x saveValue fields =>
    match r.fileFor file with
    | .error e => (.error e, r)
    | .ok (fileName, f) =>
      match firstTaken? f [] (plannedKeys name saveValue fields) with
      | some key => (.error (f.duplicateKey key), r)
      | none =>
        let done := addPlannedInPlace x f (plannedKeys name saveValue fields)
        (done.1, { r with files := r.files.insert fileName done.2 })

variable {r : Registry ω} {file : Option String} {name : String} {x : Variable ω}
  {saveValue : Bool} {fields : List String}

/-- The keys of a variable are distinct, and new to a save-file. -/
def KeysFree (f : SaveFile ω) (name : String) (saveValue : Bool) (fields : List String) : Prop :=
  (variableKeys name saveValue fields).Nodup ∧
    ∀ key ∈ variableKeys name saveValue fields, f.accessors.contains key = false

theorem firstTaken?_plannedKeys :
    firstTaken? f [] (plannedKeys name saveValue fields) = none ↔
      KeysFree f name saveValue fields := by
  rw [firstTaken?_eq_none_iff, map_fst_plannedKeys, KeysFree]
  simp

theorem addAccessor_of_ok {fileName : String} (h : r.fileFor file = .ok (fileName, f))
    (key : String) (a : Accessor ω) :
    r.addAccessor file key a
      = (f.addAccessor key a).map fun f => { r with files := r.files.insert fileName f } := by
  unfold addAccessor
  rw [h]
  show (f.addAccessor key a >>= _) = _
  cases f.addAccessor key a <;> rfl

theorem addVariable_of_ok {fileName : String} (h : r.fileFor file = .ok (fileName, f)) :
    r.addVariable file name x saveValue fields =
      match firstTaken? f [] (plannedKeys name saveValue fields) with
      | some key => .error (f.duplicateKey key)
      | none => (addPlanned x f (plannedKeys name saveValue fields)).map fun f =>
          { r with files := r.files.insert fileName f } := by
  unfold addVariable
  rw [h]
  show (match firstTaken? f [] (plannedKeys name saveValue fields) with
    | some key => _
    | none => addPlanned x f (plannedKeys name saveValue fields) >>= _) = _
  split
  · rfl
  · cases addPlanned x f (plannedKeys name saveValue fields) <;> rfl

/-- Made in place, a registration comes to the same; if it fails, the registry is as it was. -/
theorem addInPlace_eq (r : Registry ω) (x : Registration ω) :
    r.addInPlace x = match r.add x with
      | .ok r' => (.ok (), r')
      | .error e => (.error e, r) := by
  cases x with
  | file g =>
    simp only [addInPlace, add, addFile]
    cases g.check with
    | error e => rfl
    | ok u =>
      by_cases hc : r.files.contains g.name = true
      · simp only [hc, if_true]
        rfl
      · simp only [hc]
        rfl
  | accessor file key a =>
    cases hfile : r.fileFor file with
    | error e => simp only [addInPlace, add, addAccessor, hfile]; rfl
    | ok found =>
      obtain ⟨name, f⟩ := found
      simp only [addInPlace, add, hfile, addAccessor_of_ok hfile]
      cases f.addAccessor key a <;> rfl
  | ofVariable file name x saveValue fields =>
    cases hfile : r.fileFor file with
    | error e => simp only [addInPlace, add, addVariable, hfile]; rfl
    | ok found =>
      obtain ⟨fileName, f⟩ := found
      simp only [addInPlace, add, hfile, addVariable_of_ok hfile]
      cases htaken : firstTaken? f [] (plannedKeys name saveValue fields) with
      | some key => rfl
      | none =>
        obtain ⟨hdistinct, hnew⟩ := firstTaken?_eq_none_iff.1 htaken
        obtain ⟨f', hall, hplace, -⟩ := exists_addPlanned x hdistinct fun key hkey =>
          (hnew key hkey).2
        simp only [hall, hplace]
        rfl

/-! ## Registering a variable -/

theorem fileFor_of_some (h : r.files.get? (file.getD usualFile) = some f) :
    r.fileFor file = .ok (file.getD usualFile, f) := by
  unfold fileFor
  simp only [h]

theorem fileFor_of_none (h : r.files.get? (file.getD usualFile) = none) :
    r.fileFor file = .error (unknownFile (file.getD usualFile)) := by
  unfold fileFor
  simp only [h]

/-- What a variable that was registered has added to a save-file. -/
structure VariableAdded (x : Variable ω) (name : String) (saveValue : Bool) (fields : List String)
    (f f' : SaveFile ω) : Prop where
  settings : f'.settings = f.settings
  lastSave : f'.lastSave = f.lastSave
  /--
  the accessors are those that were there, and under each key of the variable the one that reads and
  writes its value or a field
  -/
  accessors : ∀ key a, f'.accessors.get? key = some a ↔
    f.accessors.get? key = some a ∨ ReadsUnder x name saveValue fields key a

theorem addVariable_of_free (h : r.files.get? (file.getD usualFile) = some f)
    (hfree : KeysFree f name saveValue fields) (x : Variable ω) :
    ∃ f', r.addVariable file name x saveValue fields
        = .ok { r with files := r.files.insert (file.getD usualFile) f' } ∧
      VariableAdded x name saveValue fields f f' := by
  have htaken := firstTaken?_plannedKeys.2 hfree
  obtain ⟨hdistinct, hnew⟩ := firstTaken?_eq_none_iff.1 htaken
  obtain ⟨f', hall, -, hget⟩ := exists_addPlanned x hdistinct fun key hkey => (hnew key hkey).2
  obtain ⟨hsettings, hlastSave⟩ := addPlanned_eq_ok hall
  refine ⟨f', ?_, hsettings, hlastSave, fun key a => ?_⟩
  · rw [addVariable_of_ok (fileFor_of_some h), htaken, hall]
    rfl
  · rw [hget, readsUnder_iff]

/-- A variable is registered exactly if its keys are distinct and new to its save-file. -/
theorem addVariable_iff :
    (∃ r', r.addVariable file name x saveValue fields = .ok r') ↔
      ∃ f, r.files.get? (file.getD usualFile) = some f ∧ KeysFree f name saveValue fields := by
  constructor
  · rintro ⟨r', h⟩
    cases hget : r.files.get? (file.getD usualFile) with
    | none =>
      rw [addVariable, fileFor_of_none hget] at h
      cases h
    | some f =>
      refine ⟨f, rfl, firstTaken?_plannedKeys.1 ?_⟩
      rw [addVariable_of_ok (fileFor_of_some hget)] at h
      split at h
      · cases h
      · assumption
  · rintro ⟨f, hget, hfree⟩
    obtain ⟨f', hadd, -⟩ := addVariable_of_free hget hfree x
    exact ⟨_, hadd⟩

/-! ## Registries as they come about -/

/-- What registering does to a registry. -/
structure Registers (r : Registry ω) : Prop where
  wellFormed : r.WellFormed
  /-- a variable is registered exactly if its save-file is there and its keys are free in it -/
  succeeds_iff : ∀ file name x saveValue fields,
    (∃ r', r.addVariable file name x saveValue fields = .ok r') ↔
      ∃ f, r.files.get? (file.getD usualFile) = some f ∧ KeysFree f name saveValue fields
  /-- then just its keys come to the save-file, and nothing else changes -/
  adds : ∀ file name x saveValue fields r', r.addVariable file name x saveValue fields = .ok r' →
    ∃ f f', r.files.get? (file.getD usualFile) = some f ∧
      r' = { r with files := r.files.insert (file.getD usualFile) f' } ∧
      VariableAdded x name saveValue fields f f'
  /-- made in place, a registration that fails leaves everything as it was -/
  inPlace : ∀ x, r.addInPlace x = match r.add x with
    | .ok r' => (.ok (), r')
    | .error e => (.error e, r)

theorem registers_of_wellFormed (h : r.WellFormed) : r.Registers where
  wellFormed := h
  succeeds_iff file name x saveValue fields := addVariable_iff
  adds file name x saveValue fields r' hadd := by
    obtain ⟨f, hget, hfree⟩ := addVariable_iff.1 ⟨r', hadd⟩
    obtain ⟨f', hadd', hadded⟩ := addVariable_of_free hget hfree x
    rw [hadd] at hadd'
    cases hadd'
    exact ⟨f, f', hget, rfl, hadded⟩
  inPlace := addInPlace_eq r

/-- Registering in place comes to the same registry, one registration after the other. -/
theorem foldl_addInPlace (r : Registry ω) (l : List (Registration ω)) :
    l.foldl (fun r x => (r.addInPlace x).2) r = r.registerAll l := by
  induction l generalizing r with
  | nil => rfl
  | cons x rest ih =>
    have hstep : (r.addInPlace x).2 = r.register x := by
      rw [addInPlace_eq, register]
      cases r.add x <;> rfl
    rw [List.foldl_cons, hstep]
    exact ih (r.register x)

/--
A registry from settings has one save-file for each that is configured, and whatever is registered
in it, in place or not, it is well formed, and each registration adds all of it or nothing.
-/
theorem registers_of_ofSettings {d : Disk} {settings : Settings} {r : Registry ω}
    (h : ofSettings d settings = .ok r) :
    r.files.entries.Perm (settings.files.map fun g => (g.name, SaveFile.ofSettings g)) ∧
      ∀ l : List (Registration ω),
        l.foldl (fun r x => (r.addInPlace x).2) r = r.registerAll l ∧ (r.registerAll l).Registers :=
  ⟨entries_ofSettings h, fun l =>
    ⟨foldl_addInPlace r l, registers_of_wellFormed (wellFormed_registerAll h l)⟩⟩

/-- A record with two fields. -/
def Sample.limits : Record :=
  ⟨.bool true, (NameMap.empty.insert "HIGH" (.text "hot")).insert "LOW" (.text "cold"), false, false,
    none, none, 0, []⟩

/--
The value can be registered beside fields, each of which is read under its own key, but not beside
the field that stands for it.
-/
theorem registers_sample :
    ofSettings Disk.bare Sample.settings = .ok (Sample.registry : Registry Record) ∧
      (Sample.registry : Registry Record).Registers ∧
      (∃ r' f a,
        Sample.registry.addVariable none "x" Record.asVariable true ["HIGH", "LOW"] = .ok r' ∧
          r'.files.get? "auto" = some f ∧ f.accessors.get? "x.HIGH" = some a ∧
          (a.get Sample.limits).1 = .ok (.text "hot")) ∧
      ¬∃ r', Sample.registry.addVariable none "x" Record.asVariable true [valueField] = .ok r' := by
  have hsettings : Sample.settings.check Disk.bare = .ok () :=
    except_eq_ok_of_isOk (by decide +kernel)
  have hregistry :
      ofSettings Disk.bare Sample.settings = .ok (Sample.registry : Registry Record) := by
    rw [ofSettings, hsettings]
    rfl
  have h : (Sample.registry : Registry Record).Registers :=
    ((registers_of_ofSettings hregistry).2 []).2
  have hget : (Sample.registry : Registry Record).files.get? "auto"
      = some (SaveFile.ofSettings (.named "auto")) := rfl
  refine ⟨hregistry, h, ?_, ?_⟩
  · obtain ⟨r', hadd⟩ := (h.succeeds_iff none "x" Record.asVariable true ["HIGH", "LOW"]).2
      ⟨_, hget, by decide, by decide⟩
    obtain ⟨f, f', -, hr', hadded⟩ := h.adds _ _ _ _ _ r' hadd
    have hwraps := Accessor.wraps_ofField Record.asVariable "HIGH"
    have hunder : ReadsUnder Record.asVariable "x" true ["HIGH", "LOW"] "x.HIGH"
        (Accessor.ofField Record.asVariable "HIGH") := .field (by decide) (by decide) hwraps
    refine ⟨r', f', _, hadd, ?_, (hadded.accessors "x.HIGH" _).2 (.inr hunder), ?_⟩
    · rw [hr', NameMap.get?_insert]
      rfl
    · rw [hwraps.reads]
      rfl
  · rw [h.succeeds_iff]
    rintro ⟨f, -, hdistinct, -⟩
    exact absurd hdistinct (by decide)

end Registry

end Keepsake
