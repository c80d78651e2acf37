import Keepsake.Engine.Load
import Keepsake.Proofs.Encoding
import Keepsake.Proofs.Pass
import Keepsake.Variable.Shelf
/-!
# Save-files over cells

A save-file whose accessors all belong to healthy cells reads as the snapshot of what the cells
hold, and takes entries whose values have the kinds of the cells, up to widening. It makes no
difference whether a cell is registered by itself or as the value of a variable: the second way
widens once more, which changes nothing.

In a file an empty row has no kind and is read as one of integers. Widening it to a row of floats
makes it what it was (`Value.widenLike_blurred`).
-/

namespace Keepsake

variable {ε : Type}

/-! ## Cells on a shelf -/

/-- A cell that is not poisoned stands under a number and holds a value. -/
def Shelf.Holds (shelf : Shelf) (n : Nat) (v : Value) : Prop :=
  shelf[n]? = some (.cell (.ofValue v))

/-- The accessors of what stands under a number: by itself, and as the value of a variable. -/
inductive IsCellAccessor (n : Nat) : Accessor Shelf → Prop where
  | direct : IsCellAccessor n (.direct (Shelf.asVariable n))
  | ofValue : IsCellAccessor n (.ofValue (Shelf.asVariable n))

theorem Shelf.set_of_holds {shelf : Shelf} {n : Nat} {v : Value} (h : shelf.Holds n v) :
    shelf.set n (.cell (.ofValue v)) = shelf := by
  refine List.ext_getElem? fun m => ?_
  rw [List.getElem?_set]
  by_cases hm : n = m
  · subst hm
    have hlt : n < shelf.length := (List.getElem?_eq_some_iff.1 h).1
    rw [if_pos rfl, if_pos hlt]
    exact h.symm
  · rw [if_neg hm]

theorem Shelf.holds_set_self {shelf : Shelf} {n : Nat} {v u : Value} (h : shelf.Holds n v) :
    Holds (shelf.set n (.cell (.ofValue u))) n u := by
  have hlt : n < shelf.length := (List.getElem?_eq_some_iff.1 h).1
  unfold Holds
  rw [List.getElem?_set_self hlt]

theorem Shelf.value_asVariable {shelf : Shelf} {n : Nat} {v : Value} (h : shelf.Holds n v) :
    (Shelf.asVariable n).value shelf = (.ok v, shelf) := by
  show Shelf.on n _ _ shelf = _
  unfold Shelf.on
  rw [h]
  show (Cell.load (.ofValue v), shelf.set n (.cell (.ofValue v))) = _
  rw [set_of_holds h]
  rfl

theorem Shelf.setValue_asVariable {shelf : Shelf} {n : Nat} {cur v : Value} (h : shelf.Holds n cur)
    (hk : cur.kind = (Value.widenLike cur v).kind) :
    (Shelf.asVariable n).setValue v shelf
      = (.ok (), shelf.set n (.cell (.ofValue (Value.widenLike cur v)))) := by
  have hstore : Cell.store v (.ofValue cur) = (.ok (), .ofValue (Value.widenLike cur v)) := by
    simp [Cell.store, Cell.ofValue, hk]
  show Shelf.on n _ _ shelf = _
  unfold Shelf.on
  rw [h]
  show ((Cell.store v (.ofValue cur)).1, shelf.set n (.cell (Cell.store v (.ofValue cur)).2)) = _
  rw [hstore]

namespace IsCellAccessor

variable {n : Nat} {a : Accessor Shelf} {shelf : Shelf} {cur v : Value}

theorem get_eq (ha : IsCellAccessor n a) (h : shelf.Holds n v) : a.get shelf = (.ok v, shelf) := by
  cases ha <;> exact Shelf.value_asVariable h

/-- Either accessor widens to what the cell holds, and writes if that gives its kind. -/
theorem set_eq (ha : IsCellAccessor n a) (h : shelf.Holds n cur)
    (hk : cur.kind = (Value.widenLike cur v).kind) :
    a.set v shelf = (.ok (), shelf.set n (.cell (.ofValue (Value.widenLike cur v)))) := by
  cases ha with
  | direct => exact Shelf.setValue_asVariable h hk
  | ofValue =>
    show widenAndWrite _ _ v shelf = _
    unfold widenAndWrite
    split
    · rw [Shelf.value_asVariable h]
      have hk' : cur.kind = (Value.widenLike cur (Value.widenLike cur v)).kind := by
        rw [Value.widenLike_widenLike]
        exact hk
      show (Shelf.asVariable n).setValue (Value.widenLike cur v) shelf = _
      rw [Shelf.setValue_asVariable h hk', Value.widenLike_widenLike]
    · exact Shelf.setValue_asVariable h hk

end IsCellAccessor

/-! ## Kinds that files do not keep -/

/-- What of a value is in a file: an empty row of floats is there as any empty row. -/
def Value.blurred : Value → Value
  | .floats [] => .ints []
  | v => v

/-- What of a snapshot is in a file. -/
def Snapshot.blurred (s : Snapshot) : Snapshot :=
  ⟨s.entries.map fun e => (e.1, e.2.blurred), by rw [List.pairwise_map]; exact s.ascending⟩

/-- Widening brings back what was blurred, given a value of the kind that it had. -/
theorem Value.widenLike_blurred {cur v u : Value} (hk : cur.kind = v.kind)
    (hu : u.same v.blurred = true) :
    cur.kind = (widenLike cur u).kind ∧ (widenLike cur u).same v = true := by
  cases v with
  | floats xs =>
    cases cur with
    | floats ys =>
      cases xs with
      | nil =>
        cases u <;> simp_all [blurred, same, widenLike, kind, sameFloats]
      | cons x xs =>
        cases u <;> simp_all [blurred, same, widenLike, kind]
    | _ => cases hk
  | _ =>
    cases cur <;> cases hk
    cases u <;> simp_all [blurred, same, widenLike, kind]

/-! ## Values by their keys -/

/-- The value under a key; without one, any value. -/
def Snapshot.valueAt (s : Snapshot) (key : String) : Value := (s.get? key).getD (.bool false)

theorem Snapshot.valueAt_of_get? {s : Snapshot} {key : String} {v : Value}
    (h : s.get? key = some v) :
    s.valueAt key = v := by
  rw [valueAt, h]
  rfl

theorem Snapshot.get?_of_mem_keys {s : Snapshot} {key : String} (h : key ∈ s.keys) :
    s.get? key = some (s.valueAt key) := by
  obtain ⟨v, hv⟩ := Option.isSome_iff_exists.1 ((NameMap.mem_keys_iff s key).1 h)
  rw [hv, valueAt_of_get? hv]

/-! ## Save-files over cells -/

/--
The accessors of a save-file belong to cells, which hold the values of a snapshot under its keys.
-/
structure SaveFile.OverCells (f : SaveFile Shelf) (number : String → Nat) (shelf : Shelf)
    (s : Snapshot) : Prop where
  keys : f.accessors.keys = s.keys
  accessors : ∀ key a, f.accessors.get? key = some a → IsCellAccessor (number key) a
  cells : ∀ key v, s.get? key = some v → shelf.Holds (number key) v

namespace SaveFile

variable {f : SaveFile Shelf} {number : String → Nat} {s : Snapshot}

theorem readEntries_of_holds {l : List (String × Accessor Shelf)} {w : World Shelf}
    (number : String → Nat) (value : String → Value) (h : ∀ e ∈ l, IsCellAccessor (number e.1) e.2 ∧
      w.vars.Holds (number e.1) (value e.1)) (file : String) :
    (readEntries file l : Act Shelf ε _) w = (.ok (l.map fun e => (e.1, value e.1)), w) := by
  induction l with
  | nil => rfl
  | cons e rest ih =>
    obtain ⟨key, a⟩ := e
    obtain ⟨ha, hv⟩ := h (key, a) (List.mem_cons_self ..)
    have hget : a.get w.vars = (.ok (value key), w.vars) := ha.get_eq hv
    have hrest := ih fun e he => h e (List.mem_cons_of_mem _ he)
    simp only [readEntries, Act.settle_bind, Act.onVars_apply, hget]
    rw [Act.bind_of_ok hrest]
    rfl

/-- A save-file over cells reads as what the cells hold, and reading changes nothing. -/
theorem readSnapshot_of_overCells {w : World Shelf} (h : f.OverCells number w.vars s) :
    (f.readSnapshot : Act Shelf ε Snapshot) w = (.ok s, w) := by
  have hcells : ∀ e ∈ f.accessors.entries, IsCellAccessor (number e.1) e.2 ∧
      w.vars.Holds (number e.1) (s.valueAt e.1) := by
    intro e he
    have hmem : e.1 ∈ s.keys := h.keys ▸ List.mem_map_of_mem he
    exact ⟨h.accessors e.1 e.2 (NameMap.get?_of_mem he),
      h.cells e.1 _ (Snapshot.get?_of_mem_keys hmem)⟩
  have hentries : f.accessors.entries.map (fun e => (e.1, s.valueAt e.1)) = s.entries := by
    have hkeys : f.accessors.entries.map (fun e => (e.1, s.valueAt e.1))
        = s.keys.map fun key => (key, s.valueAt key) := by
      rw [← h.keys, NameMap.keys, List.map_map]
      rfl
    rw [hkeys, NameMap.keys, List.map_map]
    refine (List.map_congr_left fun e he => ?_).trans (List.map_id _)
    show (e.1, s.valueAt e.1) = e
    rw [Snapshot.valueAt_of_get? (NameMap.get?_of_mem he)]
  unfold readSnapshot
  rw [Act.bind_of_ok (readEntries_of_holds number s.valueAt hcells f.name), hentries,
    NameMap.ofList_entries]
  rfl

/-- Entries that suit their cells are all written, each to its cell and to no other. -/
theorem applyEntries_of_holds {l : List (String × Value)} {w : World Shelf} (number : String → Nat)
    (cur : String → Value) (hl : l.Pairwise (fun a b => a.1 < b.1))
    (ha : ∀ e ∈ l, ∃ a, f.accessors.get? e.1 = some a ∧ IsCellAccessor (number e.1) a)
    (hinj : ∀ e ∈ l, ∀ e' ∈ l, number e.1 = number e'.1 → e.1 = e'.1)
    (hcells : ∀ e ∈ l, w.vars.Holds (number e.1) (cur e.1))
    (hk : ∀ e ∈ l, (cur e.1).kind = (Value.widenLike (cur e.1) e.2).kind) (backup : Option String) :
    ∃ w', (f.applyEntries backup l : Act Shelf ε _) w = (.ok ⟨l.map (·.1), [], [], backup⟩, w') ∧
      (∀ e ∈ l, w'.vars.Holds (number e.1) (Value.widenLike (cur e.1) e.2)) ∧
      ∀ n, (∀ e ∈ l, number e.1 ≠ n) → w'.vars[n]? = w.vars[n]? := by
  induction l generalizing w with
  | nil => exact ⟨w, rfl, fun e he => absurd he List.not_mem_nil, fun n _ => rfl⟩
  | cons e rest ih =>
    obtain ⟨key, v⟩ := e
    rw [List.pairwise_cons] at hl
    rw [List.forall_mem_cons] at hcells hk
    obtain ⟨a, hget, hacc⟩ := ha (key, v) (List.mem_cons_self ..)
    -- the cells of the other entries are other cells
    have hne : ∀ e ∈ rest, number key ≠ number e.1 := fun e he heq =>
      String.ne_of_lt (hl.1 e he)
        (hinj (key, v) (List.mem_cons_self ..) e (List.mem_cons_of_mem _ he) heq)
    have hset := hacc.set_eq hcells.1 hk.1
    generalize hshelf : w.vars.set (number key)
      (.cell (.ofValue (Value.widenLike (cur key) v))) = shelf
      at hset
    have hother : ∀ n, number key ≠ n → shelf[n]? = w.vars[n]? := fun n hn => by
      rw [← hshelf, List.getElem?_set_ne hn]
    obtain ⟨w', happly, hheld, hkept⟩ := ih (w := { w with vars := shelf }) hl.2
      (fun e he => ha e (List.mem_cons_of_mem _ he))
      (fun e he e' he' => hinj e (List.mem_cons_of_mem _ he) e' (List.mem_cons_of_mem _ he'))
      (fun e he => (hother _ (hne e he)).trans (hcells.2 e he)) hk.2
    refine ⟨w', ?_, ?_, ?_⟩
    · rw [applyEntries, hget]
      simp only [Act.settle_bind, Act.onVars_apply, hset]
      rw [Act.bind_of_ok happly]
      rfl
    · rw [List.forall_mem_cons]
      refine ⟨?_, hheld⟩
      show w'.vars[number key]? = _
      rw [hkept _ fun e he heq => hne e he heq.symm, ← hshelf]
      exact Shelf.holds_set_self hcells.1
    · intro n hn
      rw [List.forall_mem_cons] at hn
      rw [hkept n hn.2]
      exact hother n hn.1

end SaveFile

end Keepsake
