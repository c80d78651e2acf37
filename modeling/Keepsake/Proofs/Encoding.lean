import Keepsake.Codec
/-!
# Unchanged snapshots are written alike

What the comparison of snapshots passes over never reaches a file. Two values are the same if they
are equal but for the bits of their NaNs; YAML writes every NaN as one word, and JSON refuses a
snapshot for any of them with the same message. So a snapshot that has not changed since the last
save would be written as it was then, or refused as it would have been then.
-/

namespace Keepsake

/-! ## Floats -/

theorem Binary64.same_cases {x y : Binary64} (h : x.same y = true) :
    x = y ∨ (x.isNaN = true ∧ y.isNaN = true) := by
  simpa [Binary64.same] using h

theorem Binary64.isFinite_of_isNaN {x : Binary64} (h : x.isNaN = true) : x.isFinite = false := by
  simp only [isNaN, isFinite, decide_eq_true_eq, decide_eq_false_iff_not] at h ⊢
  omega

theorem Binary64.isFinite_eq_of_same {x y : Binary64} (h : x.same y = true) :
    x.isFinite = y.isFinite := by
  rcases same_cases h with rfl | ⟨hx, hy⟩
  · rfl
  · rw [isFinite_of_isNaN hx, isFinite_of_isNaN hy]

/-- No layout tells one NaN from another. -/
theorem Layout.chars_eq_of_same (l : Layout) {x y : Binary64} (h : x.same y = true) :
    l.chars x = l.chars y := by
  rcases Binary64.same_cases h with rfl | ⟨hx, hy⟩
  · rfl
  · simp [Layout.chars, hx, hy]

theorem Json.floatChars_eq_of_same {x y : Binary64} (h : x.same y = true) :
    Json.floatChars x = Json.floatChars y := by
  unfold Json.floatChars
  rw [Binary64.isFinite_eq_of_same h, Layout.chars_eq_of_same _ h]

/-! ## Values -/

namespace Value

/-- What is the same for floats that are is the same for rows of them. -/
theorem map_eq_of_sameFloats {β : Type} {g : Binary64 → β}
    (hg : ∀ {x y : Binary64}, x.same y = true → g x = g y) {xs ys : List Binary64}
    (h : sameFloats xs ys = true) : xs.map g = ys.map g := by
  induction xs generalizing ys with
  | nil =>
    cases ys with
    | nil => rfl
    | cons y ys => cases h
  | cons x xs ih =>
    cases ys with
    | nil => cases h
    | cons y ys =>
      simp only [sameFloats, Bool.and_eq_true] at h
      rw [List.map_cons, List.map_cons, hg h.1, ih h.2]

/-- Values that are the same are equal, or floats alike, or rows of such. -/
theorem same_cases {v w : Value} (h : v.same w = true) :
    v = w ∨ (∃ x y, v = float x ∧ w = float y ∧ x.same y = true) ∨
      ∃ xs ys, v = floats xs ∧ w = floats ys ∧ sameFloats xs ys = true := by
  cases v <;> cases w <;> simp_all [same]

theorem isFinite_eq_of_same {v w : Value} (h : v.same w = true) : v.isFinite = w.isFinite := by
  rcases same_cases h with rfl | ⟨x, y, rfl, rfl, hxy⟩ | ⟨xs, ys, rfl, rfl, hxs⟩
  · rfl
  · exact Binary64.isFinite_eq_of_same hxy
  · have hmap := map_eq_of_sameFloats Binary64.isFinite_eq_of_same hxs
    have hall : ∀ zs : List Binary64, zs.all Binary64.isFinite =
        (zs.map Binary64.isFinite).all id :=
      fun zs => by simp [List.all_map]
    rw [isFinite, isFinite, hall xs, hall ys, hmap]

theorem openValue_eq_of_same {v w : Value} (h : v.same w = true) :
    Json.openValue v = Json.openValue w := by
  rcases same_cases h with rfl | ⟨x, y, rfl, rfl, hxy⟩ | ⟨xs, ys, rfl, rfl, hxs⟩
  · rfl
  · exact Json.floatChars_eq_of_same hxy
  · rw [Json.openValue, Json.openValue, map_eq_of_sameFloats Json.floatChars_eq_of_same hxs]

theorem yamlChars_eq_of_same {v w : Value} (h : v.same w = true) :
    Yaml.valueChars v = Yaml.valueChars w := by
  rcases same_cases h with rfl | ⟨x, y, rfl, rfl, hxy⟩ | ⟨xs, ys, rfl, rfl, hxs⟩
  · rfl
  · exact Layout.chars_eq_of_same _ hxy
  · have hmap : xs.map Yaml.numberLayout.chars = ys.map Yaml.numberLayout.chars :=
      map_eq_of_sameFloats (Layout.chars_eq_of_same _) hxs
    rw [Yaml.valueChars, Yaml.valueChars, hmap]

end Value

/-! ## What the comparison finds -/

/-- Of two ascending lists the one with no further members is a part of the other. -/
theorem sublist_of_ascending {l r : List String} (hl : l.Pairwise (· < ·)) (hr : r.Pairwise (· < ·))
    (h : ∀ k ∈ l, k ∈ r) : l.Sublist r := by
  induction r generalizing l with
  | nil =>
    have hnil : l = [] := List.eq_nil_iff_forall_not_mem.2 fun k hk => List.not_mem_nil (h k hk)
    exact hnil ▸ List.nil_sublist _
  | cons y ys ih =>
    rw [List.pairwise_cons] at hr
    cases l with
    | nil => exact List.nil_sublist _
    | cons x xs =>
      rw [List.pairwise_cons] at hl
      rcases List.mem_cons.1 (h x (List.mem_cons_self ..)) with rfl | hx
      · refine (ih hl.2 hr.2 fun k hk => ?_).cons_cons _
        rcases List.mem_cons.1 (h k (List.mem_cons_of_mem _ hk)) with rfl | hk'
        · exact absurd (hl.1 k hk) (String.lt_irrefl k)
        · exact hk'
      · -- `y` comes before all of the shorter list
        refine (ih (List.pairwise_cons.2 hl) hr.2 fun k hk => ?_).cons _
        rcases List.mem_cons.1 (h k hk) with rfl | hk'
        · rcases List.mem_cons.1 hk with rfl | hk
          · exact hx
          · exact absurd (String.lt_trans (hr.1 x hx) (hl.1 k hk)) (String.lt_irrefl k)
        · exact hk'

namespace Snapshot

theorem sameEntries_self (l : List (String × Value)) : sameEntries l l = true := by
  induction l with
  | nil => rfl
  | cons x xs ih => simp [sameEntries, ih]

theorem same_self (s : Snapshot) : s.same s = true := sameEntries_self s.entries

theorem sameEntries_comm (l r : List (String × Value)) : sameEntries l r = sameEntries r l := by
  induction l generalizing r with
  | nil => cases r <;> rfl
  | cons x xs ih =>
    cases r with
    | nil => rfl
    | cons y ys => simp [sameEntries, ih, Value.same_comm x.2 y.2, eq_comm]

theorem same_comm (s t : Snapshot) : s.same t = t.same s := sameEntries_comm s.entries t.entries

theorem keys_eq_of_sameEntries {l r : List (String × Value)} (h : sameEntries l r = true) :
    l.map (·.1) = r.map (·.1) := by
  induction l generalizing r with
  | nil =>
    cases r with
    | nil => rfl
    | cons y ys => cases h
  | cons x xs ih =>
    cases r with
    | nil => cases h
    | cons y ys =>
      simp only [sameEntries, Bool.and_eq_true, decide_eq_true_eq] at h
      rw [List.map_cons, List.map_cons, h.1.1, ih h.2]

/-- Entries are the same if the keys are and each look-up finds the same. -/
theorem sameEntries_iff {l r : List (String × Value)} (hl : l.Pairwise (fun a b => a.1 < b.1))
    (hk : l.map (·.1) = r.map (·.1)) :
    sameEntries l r = true ↔ ∀ e ∈ l, ∃ v, NameMap.lookup e.1 r = some v ∧ e.2.same v = true := by
  induction l generalizing r with
  | nil => cases r <;> simp_all [sameEntries]
  | cons x xs ih =>
    obtain ⟨k, v⟩ := x
    cases r with
    | nil => cases hk
    | cons y ys =>
      obtain ⟨k', w⟩ := y
      simp only [List.map_cons, List.cons.injEq] at hk
      obtain ⟨rfl, hk⟩ := hk
      rw [List.pairwise_cons] at hl
      have hlook : ∀ e ∈ xs,
          NameMap.lookup e.1 ((k, w) :: ys) = NameMap.lookup e.1 ys := fun e he => by
        rw [NameMap.lookup, if_neg (String.ne_of_lt (hl.1 e he))]
      rw [sameEntries, Bool.and_eq_true, ih hl.2 hk, List.forall_mem_cons]
      refine and_congr (by simp [NameMap.lookup]) (forall₂_congr fun e he => ?_)
      rw [hlook e he]

/-- A snapshot counts as changed exactly if it is not the same as the last. -/
theorem changed_eq_false_iff {s t : Snapshot} : s.changed (some t) = false ↔ s.same t = true := by
  have hchanged : s.changed (some t) = false ↔ s.size = t.size ∧
      ∀ e ∈ s.entries, ∃ v, NameMap.lookup e.1 t.entries = some v ∧ e.2.same v = true := by
    unfold changed NameMap.get?
    rw [Bool.or_eq_false_iff, List.any_eq_false]
    refine and_congr (by simp) (forall₂_congr fun e he => ?_)
    cases NameMap.lookup e.1 t.entries <;> simp
  rw [hchanged]
  constructor
  · rintro ⟨hsize, hlook⟩
    have hsub : s.keys.Sublist t.keys := by
      refine sublist_of_ascending s.keys_ascending t.keys_ascending fun k hk => ?_
      obtain ⟨e, he, rfl⟩ := List.mem_map.1 hk
      obtain ⟨v, hv, -⟩ := hlook e he
      exact List.mem_map.2 ⟨(e.1, v), (NameMap.mem_entries_iff t e.1 v).2 hv, rfl⟩
    have hkeys : s.keys = t.keys :=
      hsub.eq_of_length (by simpa [NameMap.keys, NameMap.size] using hsize)
    exact (sameEntries_iff s.ascending hkeys).2 hlook
  · intro h
    have hkeys := keys_eq_of_sameEntries h
    refine ⟨?_, (sameEntries_iff s.ascending hkeys).1 h⟩
    simpa [NameMap.size] using congrArg List.length hkeys

/-! ## Written snapshots -/

/-- What depends on keys, and on values up to sameness, is alike for the same entries. -/
theorem map_eq_of_sameEntries {β : Type} {g : String × Value → β}
    (hg : ∀ {k : String} {v w : Value}, v.same w = true → g (k, v) = g (k, w))
    {l r : List (String × Value)} (h : sameEntries l r = true) : l.map g = r.map g := by
  induction l generalizing r with
  | nil =>
    cases r with
    | nil => rfl
    | cons y ys => cases h
  | cons x xs ih =>
    cases r with
    | nil => cases h
    | cons y ys =>
      obtain ⟨k, v⟩ := x
      obtain ⟨k', w⟩ := y
      simp only [sameEntries, Bool.and_eq_true, decide_eq_true_eq] at h
      obtain ⟨⟨rfl, hv⟩, hrest⟩ := h
      rw [List.map_cons, List.map_cons, hg hv, ih hrest]

theorem nonFiniteKey?_eq_of_same {s t : Snapshot} (h : s.same t = true) :
    s.nonFiniteKey? = t.nonFiniteKey? := by
  have hmap : s.entries.map (fun e => (e.1, e.2.isFinite)) =
      t.entries.map fun e => (e.1, e.2.isFinite) :=
    map_eq_of_sameEntries (fun hv => by rw [Value.isFinite_eq_of_same hv]) h
  have hfind : ∀ u : Snapshot, u.nonFiniteKey? =
      ((u.entries.map fun e => (e.1, e.2.isFinite)).find? fun p => !p.2).map (·.1) := by
    intro u
    rw [List.find?_map, Option.map_map]
    rfl
  rw [hfind, hfind, hmap]

theorem isEmpty_eq_of_sameEntries {l r : List (String × Value)} (h : sameEntries l r = true) :
    l.isEmpty = r.isEmpty := by
  cases l <;> cases r <;> first | rfl | cases h

/--
Snapshots that are the same are written as the same bytes, or both refused for the same reason.
-/
theorem encode_eq_of_same {s t : Snapshot} (h : s.same t = true) (format : Format) :
    format.encode s = format.encode t := by
  have hempty := isEmpty_eq_of_sameEntries h
  cases format with
  | json =>
    have hentries : s.entries.map Json.openEntry = t.entries.map Json.openEntry :=
      map_eq_of_sameEntries (fun hv => by
        simp only [Json.openEntry]
        rw [Value.openValue_eq_of_same hv]) h
    unfold Format.encode Json.openSnapshot
    rw [nonFiniteKey?_eq_of_same h, hempty, hentries]
  | yaml =>
    have hentries : s.entries.map Yaml.entryChars = t.entries.map Yaml.entryChars :=
      map_eq_of_sameEntries (fun hv => by
        simp only [Yaml.entryChars]
        rw [Value.yamlChars_eq_of_same hv]) h
    unfold Format.encode Yaml.snapshotChars
    rw [hempty, List.flatMap_def, List.flatMap_def, hentries]

end Snapshot

/-- Bytes that were written as a text are read as it. -/
theorem Format.textOf?_bytesOf (cs : List Char) : textOf? (bytesOf cs) = some cs := by
  have hvalid : ((String.ofList cs).toUTF8).IsValidUTF8 := (String.ofList cs).isValidUTF8
  show (String.fromUTF8? (String.ofList cs).toUTF8).map String.toList = some cs
  rw [String.fromUTF8?, dif_pos hvalid]
  exact congrArg some String.toList_ofList

end Keepsake
