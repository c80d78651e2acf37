import Keepsake.Proofs.Act
import Keepsake.SaveFile
/-!
# What a snapshot is read from

The accessors of a save-file are read in the order of their keys, and since reading may change the
variables, each of them meets what those before it have left. The snapshot has what they answer:
under each key the value that its accessor answered, and nothing where that failed
(`SaveFile.Reads`). Only a panic leaves a save-file without a snapshot.
-/

namespace Keepsake

variable {ω ε : Type}

/-- The variables behind accessors that are read one after the other. -/
def varsBehind (entries : List (String × Accessor ω)) (vars : ω) : ω :=
  entries.foldl (fun vars e => (e.2.get vars).2) vars

/-- What the accessor of a key answers when all of them are read one after the other. -/
def answerAmong? (entries : List (String × Accessor ω)) (vars : ω) (key : String) :
    Option (Attempt Value) :=
  (NameMap.lookup key entries).map fun a =>
    (a.get (varsBehind (entries.takeWhile fun e => e.1 ≠ key) vars)).1

theorem answerAmong?_cons (k : String) (a : Accessor ω) (rest : List (String × Accessor ω))
    (vars : ω) (key : String) :
    answerAmong? ((k, a) :: rest) vars key
      = if k = key then some (a.get vars).1 else answerAmong? rest (a.get vars).2 key := by
  unfold answerAmong?
  by_cases hk : k = key
  · simp [NameMap.lookup, hk, varsBehind]
  · simp [NameMap.lookup, hk, varsBehind]

/-- A key that stands before all others is not among them. -/
theorem answerAmong?_of_lt {entries : List (String × Accessor ω)} {key : String}
    (h : ∀ e ∈ entries, key < e.1) (vars : ω) : answerAmong? entries vars key = none := by
  rw [answerAmong?, NameMap.lookup_eq_none_of_lt h]
  rfl

namespace SaveFile

/-- How reading accessors ends: with the values of those that answered, or with a panic. -/
inductive EntriesRead (l : List (String × Accessor ω)) (vars : ω) :
    Outcome ε (List (String × Value)) → Prop where
  | answered {entries : List (String × Value)}
    (keys : (entries.map Prod.fst).Sublist (l.map Prod.fst))
    (value : ∀ key v, NameMap.lookup key entries = some v ↔ answerAmong? l vars key = some (.ok v))
    (regular : ∀ key p, answerAmong? l vars key ≠ some (.panic p)) :
    EntriesRead l vars (.ok entries)
  | panicked (key : String) {p : Panic} (panicked : answerAmong? l vars key = some (.panic p)) :
    EntriesRead l vars (.panic p)

section EntriesRead

variable {k : String} {a : Accessor ω} {rest : List (String × Accessor ω)} {vars vars' : ω}

/-- What an accessor answers that is read first goes before what the others do. -/
theorem EntriesRead.cons {o : Outcome ε (List (String × Value))}
    (h : EntriesRead rest vars' o) (hk : ∀ e ∈ rest, k < e.1) {v : Value}
    (hget : a.get vars = (.ok v, vars')) :
    EntriesRead ((k, a) :: rest) vars (o.map fun entries => (k, v) :: entries) := by
  cases h with
  | @answered entries keys value regular =>
    refine .answered (keys.cons_cons k) (fun key u => ?_) (fun key p => ?_)
    · rw [answerAmong?_cons, hget, NameMap.lookup]
      split
      · simp
      · exact value key u
    · rw [answerAmong?_cons, hget]
      split
      · intro hanswer
        cases hanswer
      · exact regular key p
  | @panicked key p panicked =>
    refine .panicked key ?_
    rw [answerAmong?_cons, hget, if_neg ?_]
    · exact panicked
    · rintro rfl
      rw [answerAmong?_of_lt hk] at panicked
      cases panicked

/-- Of an accessor that fails nothing is kept. -/
theorem EntriesRead.skip {o : Outcome ε (List (String × Value))}
    (h : EntriesRead rest vars' o) (hk : ∀ e ∈ rest, k < e.1) {e : AccessFailure}
    (hget : a.get vars = (.fail e, vars')) : EntriesRead ((k, a) :: rest) vars o := by
  have hnone := answerAmong?_of_lt hk vars'
  cases h with
  | @answered entries keys value regular =>
    refine .answered (keys.cons k) (fun key u => ?_) (fun key p => ?_)
    · rw [answerAmong?_cons, hget]
      split
      · next heq =>
        subst heq
        rw [value, hnone]
        simp
      · exact value key u
    · rw [answerAmong?_cons, hget]
      split
      · intro hanswer
        cases hanswer
      · exact regular key p
  | @panicked key p panicked =>
    refine .panicked key ?_
    rw [answerAmong?_cons, hget, if_neg ?_]
    · exact panicked
    · rintro rfl
      rw [hnone] at panicked
      cases panicked

end EntriesRead

theorem readEntries_read (file : String) {l : List (String × Accessor ω)}
    (hl : l.Pairwise fun a b => a.1 < b.1) (w : World ω) :
    EntriesRead l w.vars ((readEntries file l : Act ω ε _) w).1 := by
  induction l generalizing w with
  | nil =>
    refine .answered (.refl []) (fun key v => ?_) fun key p => nofun
    simp [NameMap.lookup, answerAmong?]
  | cons e rest ih =>
    obtain ⟨k, a⟩ := e
    rw [List.pairwise_cons] at hl
    unfold readEntries
    rw [Act.settle_bind, Act.onVars_apply]
    cases hget : a.get w.vars with
    | mk answer vars =>
      cases answer with
      | ok v =>
        show EntriesRead _ _ ((readEntries file rest >>= fun entries => pure ((k, v) :: entries) :
          Act ω ε _) { w with vars }).1
        rw [Act.bind_pure_apply]
        exact (ih hl.2 { w with vars }).cons hl.1 hget
      | fail e =>
        exact (ih hl.2 _).skip hl.1 hget
      | panic p =>
        refine .panicked k ?_
        rw [answerAmong?_cons, if_pos rfl, hget]

/--
What the accessor of a key answers when a save-file is read: those of the lower keys have been read
before. There is no answer under a key without an accessor.
-/
def answer? (f : SaveFile ω) (vars : ω) (key : String) : Option (Attempt Value) :=
  answerAmong? f.accessors.entries vars key

/-- A snapshot is what the accessors of a save-file answer. -/
structure Reads (f : SaveFile ω) (vars : ω) (snapshot : Snapshot) : Prop where
  value : ∀ key v, snapshot.get? key = some v ↔ f.answer? vars key = some (.ok v)
  /-- nothing is there where there is no accessor, and where one failed -/
  absent : ∀ key, snapshot.get? key = none ↔
    f.answer? vars key = none ∨ ∃ e, f.answer? vars key = some (.fail e)

/-- A save-file is read as what its accessors answer, or one of them panicked. -/
theorem readSnapshot_cases (f : SaveFile ω) (w : World ω) :
    (∃ snapshot w', (f.readSnapshot : Act ω ε Snapshot) w = (.ok snapshot, w') ∧
        f.Reads w.vars snapshot) ∨
      ∃ key p w', (f.readSnapshot : Act ω ε Snapshot) w = (.panic p, w') ∧
        f.answer? w.vars key = some (.panic p) := by
  have hread := readEntries_read (ε := ε) f.name f.accessors.ascending w
  unfold readSnapshot
  rw [Act.bind_pure_apply]
  generalize (readEntries f.name f.accessors.entries : Act ω ε _) w = r at hread
  obtain ⟨o, w'⟩ := r
  cases hread with
  | @answered entries keys value regular =>
    have hascending : entries.Pairwise fun a b => a.1 < b.1 :=
      List.pairwise_map.1 (f.accessors.keys_ascending.sublist keys)
    have hvalue : ∀ key v, (NameMap.ofList entries).get? key = some v ↔
        f.answer? w.vars key = some (.ok v) := fun key v => by
      rw [NameMap.get?_ofList hascending]
      exact value key v
    refine Or.inl ⟨_, w', rfl, hvalue, fun key => ?_⟩
    rw [Option.eq_none_iff_forall_ne_some]
    simp only [ne_eq, hvalue]
    cases ha : f.answer? w.vars key with
    | none => simp
    | some answer =>
      cases answer with
      | ok v => simp
      | fail e => simp
      | panic p => exact absurd ha (regular key p)
  | panicked key panicked => exact Or.inr ⟨key, _, w', rfl, panicked⟩

theorem reads_of_readSnapshot {f : SaveFile ω} {w w' : World ω} {snapshot : Snapshot}
    (h : (f.readSnapshot : Act ω ε Snapshot) w = (.ok snapshot, w')) :
    f.Reads w.vars snapshot := by
  rcases f.readSnapshot_cases (ε := ε) w with ⟨read, w₁, hread, hreads⟩ | ⟨key, p, w₁, hread, -⟩
  · rw [h] at hread
    cases hread
    exact hreads
  · rw [h] at hread
    cases hread

end SaveFile

end Keepsake
