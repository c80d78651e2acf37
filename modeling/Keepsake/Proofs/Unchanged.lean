import Keepsake.Proofs.Encoding
/-!
# Unchanged snapshots hold the same content

What the comparison of snapshots decides is said here without it: of which kind values are and what
they hold (`Value.Alike`), floats by their bits but for NaNs, and rows item by item. Snapshots are
`Alike` if they have the same keys and alike values under each. The comparison, which counts keys
and looks up those of one side only, finds no change exactly between such snapshots, whichever of
them comes first, and so "unchanged" is an equivalence.
-/

namespace Keepsake

/-! ## Floats -/

namespace Binary64

/-- No two numbers have the same 64 bits. -/
theorem toBits_injective {x y : Binary64} (h : x.toBits = y.toBits) : x = y := by
  obtain ⟨negative, magnitude, hx⟩ := x
  obtain ⟨negative', magnitude', hy⟩ := y
  have hbits := congrArg UInt64.toNat h
  simp only [toBits, UInt64.toNat_ofNat'] at hbits
  -- the sign is the highest of the 64 bits, and nothing else reaches it
  rw [signWord] at hx hy hbits
  cases negative <;> cases negative' <;> simp at hbits ⊢ <;> omega

/-- The same bits, or NaNs both. -/
def Alike (x y : Binary64) : Prop := x.toBits = y.toBits ∨ (x.isNaN = true ∧ y.isNaN = true)

theorem same_iff {x y : Binary64} : x.same y = true ↔ x.Alike y := by
  have hbits : x = y ↔ x.toBits = y.toBits := ⟨congrArg toBits, toBits_injective⟩
  simp [same, Alike, hbits]

end Binary64

/-! ## Values -/

namespace Value

/-- Values of the same kind with the same content. -/
inductive Alike : Value → Value → Prop where
  | bool (b : Bool) : Alike (.bool b) (.bool b)
  | int (i : Whole) : Alike (.int i) (.int i)
  | float {x y : Binary64} (content : x.Alike y) : Alike (.float x) (.float y)
  | text (s : String) : Alike (.text s) (.text s)
  | ints {is js : List Whole} (length : is.length = js.length)
    (items : ∀ n (hi : n < is.length) (hj : n < js.length), is[n] = js[n]) :
    Alike (.ints is) (.ints js)
  | floats {xs ys : List Binary64} (length : xs.length = ys.length)
    (items : ∀ n (hx : n < xs.length) (hy : n < ys.length), xs[n].Alike ys[n]) :
    Alike (.floats xs) (.floats ys)

theorem sameFloats_iff {xs ys : List Binary64} : sameFloats xs ys = true ↔
    xs.length = ys.length ∧ ∀ n (hx : n < xs.length) (hy : n < ys.length), xs[n].Alike ys[n] := by
  induction xs generalizing ys with
  | nil => cases ys <;> simp [sameFloats]
  | cons x xs ih =>
    cases ys with
    | nil => simp [sameFloats]
    | cons y ys =>
      rw [sameFloats, Bool.and_eq_true, ih, Binary64.same_iff]
      constructor
      · rintro ⟨hhead, hlength, hrest⟩
        refine ⟨congrArg (· + 1) hlength, ?_⟩
        rintro (_ | n) hx hy
        · exact hhead
        · exact hrest n (Nat.lt_of_succ_lt_succ hx) (Nat.lt_of_succ_lt_succ hy)
      · rintro ⟨hlength, hitems⟩
        refine ⟨hitems 0 (Nat.succ_pos _) (Nat.succ_pos _), Nat.succ.inj hlength, ?_⟩
        exact fun n hx hy => hitems (n + 1) (Nat.succ_lt_succ hx) (Nat.succ_lt_succ hy)

/-- What the equality of values decides. -/
theorem same_iff {v w : Value} : v.same w = true ↔ v.Alike w := by
  constructor
  · intro h
    cases v <;> cases w <;> simp only [same, decide_eq_true_eq, Bool.false_eq_true] at h
    case bool.bool => exact h ▸ .bool _
    case int.int => exact h ▸ .int _
    case float.float => exact .float (Binary64.same_iff.1 h)
    case text.text => exact h ▸ .text _
    case ints.ints => exact h ▸ .ints rfl fun _ _ _ => rfl
    case floats.floats =>
      obtain ⟨hlength, hitems⟩ := sameFloats_iff.1 h
      exact .floats hlength hitems
  · intro h
    cases h with
    | bool b => exact same_self _
    | int i => exact same_self _
    | float content => exact Binary64.same_iff.2 content
    | text s => exact same_self _
    | ints length items => exact decide_eq_true (List.ext_getElem length items)
    | floats length items => exact sameFloats_iff.2 ⟨length, items⟩

end Value

/-! ## Snapshots -/

namespace Snapshot

/-- The same keys, and alike values under each. -/
structure Alike (s t : Snapshot) : Prop where
  keys : ∀ key, s.contains key = t.contains key
  values : ∀ key v w, s.get? key = some v → t.get? key = some w → v.Alike w

theorem Alike.keys_eq {s t : Snapshot} (h : s.Alike t) : s.keys = t.keys := by
  refine List.Perm.eq_of_pairwise ?_ s.keys_ascending t.keys_ascending ?_
  · intro a b _ _ hab hba
    exact absurd (String.lt_trans hab hba) (String.lt_irrefl a)
  · refine (List.perm_ext_iff_of_nodup (s.keys_ascending.imp String.ne_of_lt)
      (t.keys_ascending.imp String.ne_of_lt)).2 fun key => ?_
    rw [NameMap.mem_keys_iff, NameMap.mem_keys_iff, h.keys]

/-- What the equality of snapshots decides. -/
theorem same_iff {s t : Snapshot} : s.same t = true ↔ s.Alike t := by
  have hentries (hk : s.keys = t.keys) : s.same t = true ↔
      ∀ e ∈ s.entries, ∃ v, t.get? e.1 = some v ∧ e.2.same v = true :=
    sameEntries_iff s.ascending hk
  constructor
  · intro h
    have hkeys : s.keys = t.keys := keys_eq_of_sameEntries h
    refine ⟨fun key => ?_, fun key v w hv hw => ?_⟩
    · rw [Bool.eq_iff_iff, ← NameMap.mem_keys_iff, ← NameMap.mem_keys_iff, hkeys]
    · obtain ⟨u, hu, hsame⟩ := (hentries hkeys).1 h (key, v) ((s.mem_entries_iff key v).2 hv)
      cases hu.symm.trans hw
      exact Value.same_iff.1 hsame
  · intro h
    refine (hentries h.keys_eq).2 fun e he => ?_
    have hv := NameMap.get?_of_mem he
    have hthere : t.contains e.1 = true := by
      rw [← h.keys, NameMap.contains, hv]
      rfl
    obtain ⟨w, hw⟩ := Option.isSome_iff_exists.1 hthere
    exact ⟨w, hw, Value.same_iff.2 (h.values e.1 e.2 w hv hw)⟩

theorem sameEntries_trans {l m r : List (String × Value)} (hlm : sameEntries l m = true)
    (hmr : sameEntries m r = true) : sameEntries l r = true := by
  induction l generalizing m r with
  | nil => cases m <;> cases r <;> simp_all [sameEntries]
  | cons x xs ih =>
    cases m with
    | nil => cases hlm
    | cons y ys =>
      cases r with
      | nil => cases hmr
      | cons z zs =>
        simp only [sameEntries, Bool.and_eq_true, decide_eq_true_eq] at hlm hmr ⊢
        obtain ⟨⟨hxy, hvw⟩, hrest⟩ := hlm
        obtain ⟨⟨hyz, hwu⟩, hrest'⟩ := hmr
        exact ⟨⟨hxy.trans hyz, Value.same_trans hvw hwu⟩, ih hrest hrest'⟩

/-- Snapshots between which no change is found. -/
def Unchanged (s t : Snapshot) : Prop := s.changed (some t) = false

theorem equivalence_unchanged : Equivalence Unchanged where
  refl s := changed_eq_false_iff.2 (same_self s)
  symm h := by
    rw [Unchanged, changed_eq_false_iff] at h ⊢
    rwa [same_comm]
  trans h h' := by
    rw [Unchanged, changed_eq_false_iff] at h h' ⊢
    exact sameEntries_trans h h'

/--
No change is found exactly between equal snapshots, which are those that have the same keys and
alike values under each; it does not matter which of them comes first.
-/
theorem changed_exact (s t : Snapshot) :
    (s.changed (some t) = false ↔ s.same t = true) ∧ (s.same t = true ↔ s.Alike t) ∧
      s.changed (some t) = t.changed (some s) ∧ Equivalence Unchanged := by
  refine ⟨changed_eq_false_iff, same_iff, ?_, equivalence_unchanged⟩
  have hiff : s.changed (some t) = false ↔ t.changed (some s) = false :=
    ⟨equivalence_unchanged.symm, equivalence_unchanged.symm⟩
  simpa using hiff

end Snapshot

end Keepsake
