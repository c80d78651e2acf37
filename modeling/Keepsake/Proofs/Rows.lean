import Keepsake.Value
/-!
# Rows of results

A row of results that may be missing is there if each of them is. Of numbers that are read of a row
one float is enough to make it a row of floats.
-/

namespace Keepsake

theorem mapM_cons_option {α β : Type} (f : α → Option β) (a : α) (l : List α) :
    (a :: l).mapM f = (f a).bind fun b => (l.mapM f).map (b :: ·) := by
  rw [List.mapM_cons]
  cases f a with
  | none => rfl
  | some b => cases l.mapM f <;> rfl

theorem mapM_cons_eq_some {α β : Type} {f : α → Option β} {a : α} {l : List α} {r : List β} :
    (a :: l).mapM f = some r ↔ ∃ b r', f a = some b ∧ l.mapM f = some r' ∧ r = b :: r' := by
  rw [mapM_cons_option]
  simp only [Option.bind_eq_some_iff, Option.map_eq_some_iff]
  constructor
  · rintro ⟨b, hb, r', hr', rfl⟩
    exact ⟨b, r', hb, hr', rfl⟩
  · rintro ⟨b, r', hb, hr', rfl⟩
    exact ⟨b, hb, r', hr', rfl⟩

theorem exists_of_mem_mapM {α β : Type} {f : α → Option β} {l : List α} {r : List β}
    (h : l.mapM f = some r) {b : β} (hb : b ∈ r) : ∃ a ∈ l, f a = some b := by
  induction l generalizing r with
  | nil =>
    cases h
    cases hb
  | cons a l ih =>
    obtain ⟨c, r', hc, hr', rfl⟩ := mapM_cons_eq_some.1 h
    rcases List.mem_cons.1 hb with rfl | hb
    · exact ⟨a, List.mem_cons_self .., hc⟩
    · obtain ⟨a', ha', hb'⟩ := ih hr' hb
      exact ⟨a', List.mem_cons_of_mem a ha', hb'⟩

theorem mapM_eq_map {α β : Type} {f : α → Option β} {g : α → β} {l : List α}
    (h : ∀ a ∈ l, f a = some (g a)) : l.mapM f = some (l.map g) := by
  induction l with
  | nil => rfl
  | cons a l ih =>
    rw [List.forall_mem_cons] at h
    rw [mapM_cons_option, h.1, ih h.2]
    rfl

theorem mapM_eq_map_iff {α β : Type} {f : α → Option β} {g : α → β} {l : List α} :
    l.mapM f = some (l.map g) ↔ ∀ a ∈ l, f a = some (g a) := by
  refine ⟨fun h => ?_, mapM_eq_map⟩
  induction l with
  | nil => exact nofun
  | cons a l ih =>
    obtain ⟨b, r, hb, hr, heq⟩ := mapM_cons_eq_some.1 h
    obtain ⟨rfl, rfl⟩ := List.cons.inj heq
    rw [List.forall_mem_cons]
    exact ⟨hb, ih hr⟩

/-! ## Rows of numbers -/

theorem Value.ofNumbers_ints (ws : List Whole) : ofNumbers (ws.map Number.whole) = ints ws := by
  have hback : (ws.map Number.whole).mapM Number.toWhole? = some ws := by
    rw [List.mapM_map]
    exact (mapM_eq_map fun _ _ => rfl).trans (congrArg some (List.map_id ws))
  rw [ofNumbers, hback]

/-- A row of floats stays one if there is a float in it. -/
theorem Value.ofNumbers_floats {xs : List Binary64} (hne : xs ≠ []) :
    ofNumbers (xs.map Number.float) = floats xs := by
  cases xs with
  | nil => exact absurd rfl hne
  | cons x xs =>
    have hnone : ((x :: xs).map Number.float).mapM Number.toWhole? = none := by
      rw [List.map_cons, mapM_cons_option]
      rfl
    have hback : ((x :: xs).map Number.float).map Number.toFloat = x :: xs := by
      rw [List.map_map]
      exact List.map_id _
    rw [ofNumbers, hnone, hback]

/-- Only a row that is not empty is read as floats. -/
theorem Value.of_ofNumbers_eq_floats {ns : List Number} {xs : List Binary64}
    (h : ofNumbers ns = floats xs) : xs ≠ [] ∧ ns.map Number.toFloat = xs := by
  unfold ofNumbers at h
  split at h
  · cases h
  · next hnone =>
    cases h
    refine ⟨fun hnil => ?_, rfl⟩
    rw [List.map_eq_nil_iff.1 hnil] at hnone
    cases hnone

end Keepsake
