import Keepsake.Proofs.Number.Nearest
import Keepsake.Variable.Cell
/-!
# Cells keep their kind

A cell is written directly, as an accessor of its own, or through the accessor of a variable's
value, which reads the cell and widens to what it reads before the cell widens by itself. Widening
looks at the kind of its target alone, and no writing changes the kind of a cell, so all ways come
to the same (`Way.write_eq_store`), even if the cell is written between the reading and the writing
of an accessor (`store_widenLike_afterWrites`).

After any writings the next one is settled by two kinds: that of the first value and that of the
value to be written (`write_afterWrites`). A new cell is not poisoned, and no writing of a value
poisons it; one that is poisoned refuses every writing and stays as it is.
-/

namespace Keepsake

/--
Whether cells of one kind take values of another: those of their own kind, and integers where they
hold floats.
-/
def Kind.Takes (held incoming : Kind) : Prop :=
  held = incoming ∨ held = .float ∧ incoming = .int ∨ held = .floats ∧ incoming = .ints

instance (held incoming : Kind) : Decidable (held.Takes incoming) := by
  unfold Kind.Takes
  infer_instance

namespace Value

/-! ## Widening -/

/--
A value as a cell holds it: the same, or floats for integers, one float for each integer and
the nearest one.
-/
inductive TakenAs : Value → Value → Prop where
  | same (v : Value) : TakenAs v v
  | int {i : Whole} {x : Binary64} (hnearest : Binary64.IsNearest i.1 x) : TakenAs (int i) (float x)
  | ints {is : List Whole} {xs : List Binary64} (hlength : xs.length = is.length)
      (hnearest : ∀ (n : Nat) (i : Whole) (x : Binary64), is[n]? = some i → xs[n]? = some x →
        Binary64.IsNearest i.1 x) : TakenAs (ints is) (floats xs)

variable {target target' v : Value}

theorem widenLike_congr (h : target.kind = target'.kind) (v : Value) :
    widenLike target v = widenLike target' v := by
  cases v <;> cases target <;> cases target' <;> first | rfl | cases h

theorem kind_widenLike_iff :
    target.kind = (widenLike target v).kind ↔ target.kind.Takes v.kind := by
  cases v <;> cases target <;> simp [widenLike, kind, Kind.Takes]

theorem widenLike_of_not_takes (h : ¬ target.kind.Takes v.kind) : widenLike target v = v :=
  (widenLike_eq_self_or_kind target v).resolve_right fun hk => h (kind_widenLike_iff.1 hk.symm)

theorem takenAs_widenLike (target v : Value) : TakenAs v (widenLike target v) := by
  cases v with
  | int i => cases target with
    | float _ => exact .int (Binary64.isNearest_toBinary i)
    | _ => exact .same _
  | ints is => cases target with
    | floats _ =>
      refine .ints (List.length_map _) fun n i x hi hx => ?_
      rw [List.getElem?_map, hi] at hx
      cases hx
      exact Binary64.isNearest_toBinary i
    | _ => exact .same _
  | _ => exact .same _

end Value

namespace Cell

variable {c : Cell} {v : Value}

/-! ## One writing -/

/-- Ways to write a cell. -/
inductive Way where
  /-- by itself -/
  | store
  /-- as an accessor of its own -/
  | accessor
  /-- through the accessor of a variable's value -/
  | ofValue
deriving DecidableEq

/-- What a way of writing does. -/
def Way.write : Way → Value → Cell → Attempt Unit × Cell
  | store => Cell.store
  | accessor => Cell.accessor.set
  | ofValue => (Accessor.ofValue asVariable).set

theorem store_of_takes (hc : c.poisoned = false) (h : c.value.kind.Takes v.kind) :
    store v c = (.ok (), ofValue (Value.widenLike c.value v)) := by
  unfold store
  rw [hc, if_neg Bool.false_ne_true]
  simp only [if_pos (Value.kind_widenLike_iff.2 h), ofValue]

theorem store_of_not_takes (hc : c.poisoned = false) (h : ¬ c.value.kind.Takes v.kind) :
    store v c = (.fail (.typeMismatch c.value.kind.name v.kind.name), c) := by
  have hk : c.value.kind ≠ v.kind := fun hk => h (Or.inl hk)
  unfold store
  rw [hc, if_neg Bool.false_ne_true, Value.widenLike_of_not_takes h]
  simp only [if_neg hk]

/-- Widening to a value of the kind that the cell has makes no difference. -/
theorem store_widenLike {target : Value} (h : target.kind = c.value.kind) (v : Value) :
    store (Value.widenLike target v) c = store v c := by
  unfold store
  rw [Value.widenLike_congr h, Value.widenLike_widenLike]

/-- All ways to write a cell come to the same, even if it is poisoned. -/
theorem Way.write_eq_store (way : Way) (v : Value) (c : Cell) : way.write v c = Cell.store v c := by
  cases way with
  | store => rfl
  | accessor => rfl
  | ofValue =>
    show widenAndWrite (fun c => (load c, c)) Cell.store v c = _
    unfold widenAndWrite
    split
    · cases hc : c.poisoned with
      | true => simp only [load, hc, if_true]
      | false =>
        simp only [load, hc, Bool.false_eq_true, if_false]
        exact store_widenLike rfl v
    · rfl

/-! ## Many writings -/

/-- A new cell with values written to it one after the other. -/
def afterWrites (first : Value) (writes : List (Way × Value)) : Cell :=
  writes.foldl (fun c call => (call.1.write call.2 c).2) (ofValue first)

theorem kind_store (hc : c.poisoned = false) (v : Value) :
    (store v c).2.value.kind = c.value.kind ∧ (store v c).2.poisoned = false := by
  by_cases h : c.value.kind.Takes v.kind
  · rw [store_of_takes hc h]
    exact ⟨(Value.kind_widenLike_iff.2 h).symm, rfl⟩
  · rw [store_of_not_takes hc h]
    exact ⟨rfl, hc⟩

theorem kind_foldl_write (hc : c.poisoned = false) (writes : List (Way × Value)) :
    let c' := writes.foldl (fun c call => (call.1.write call.2 c).2) c
    c'.value.kind = c.value.kind ∧ c'.poisoned = false := by
  induction writes generalizing c with
  | nil => exact ⟨rfl, hc⟩
  | cons call rest ih =>
    obtain ⟨hkind, hsound⟩ := kind_store hc call.2
    rw [← call.1.write_eq_store] at hkind hsound
    obtain ⟨hkind', hsound'⟩ := ih hsound
    exact ⟨hkind'.trans hkind, hsound'⟩

theorem kind_afterWrites (first : Value) (writes : List (Way × Value)) :
    (afterWrites first writes).value.kind = first.kind ∧
      (afterWrites first writes).poisoned = false :=
  kind_foldl_write (c := ofValue first) rfl writes

/-- What an accessor has read is as good as what the cell holds when the accessor writes. -/
theorem store_widenLike_afterWrites (first v : Value) (writes between : List (Way × Value)) :
    store (Value.widenLike (afterWrites first writes).value v)
        (afterWrites first (writes ++ between)) = store v (afterWrites first (writes ++ between)) :=
  store_widenLike ((kind_afterWrites first writes).1.trans (kind_afterWrites first _).1.symm) v

/--
Whatever has been written to a cell and by which ways, it has the kind of its first value, and
every way to write it once more does the same. If the kind takes the value, the cell holds
the value then, integers as their nearest floats if the kind is one of floats; if not, the
cell is as before, and the failure names both kinds.
-/
theorem write_afterWrites (first : Value) (writes : List (Way × Value)) :
    (afterWrites first writes).load = .ok (afterWrites first writes).value ∧
    (afterWrites first writes).value.kind = first.kind ∧
    ∀ v, ∃ result, (∀ way : Way, way.write v (afterWrites first writes) = result) ∧
      (result.1 = .ok () ↔ first.kind.Takes v.kind) ∧
      (first.kind.Takes v.kind → ∃ u, result = (.ok (), ofValue u) ∧ u.kind = first.kind ∧
        v.TakenAs u) ∧
      (¬ first.kind.Takes v.kind → result =
        (.fail (.typeMismatch first.kind.name v.kind.name), afterWrites first writes)) := by
  obtain ⟨hkind, hsound⟩ := kind_afterWrites first writes
  refine ⟨by rw [load, hsound, if_neg Bool.false_ne_true], hkind, fun v => ?_⟩
  have hways := fun way : Way => way.write_eq_store v (afterWrites first writes)
  refine ⟨_, hways, ?_⟩
  rw [← hkind]
  by_cases h : (afterWrites first writes).value.kind.Takes v.kind
  · rw [store_of_takes hsound h]
    refine ⟨iff_of_true rfl h, fun _ => ⟨_, rfl, (Value.kind_widenLike_iff.2 h).symm, ?_⟩,
      absurd h⟩
    exact Value.takenAs_widenLike _ v
  · rw [store_of_not_takes hsound h]
    exact ⟨iff_of_false nofun h, fun h' => absurd h' h, fun _ => rfl⟩

end Cell

end Keepsake
