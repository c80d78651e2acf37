/-!
# Finite maps from names

Snapshots, save-files, accessors and folders are all keyed by a name and always listed in one
order: ascending by code point, which for UTF-8 text is also ascending by byte. A `NameMap`
therefore keeps its entries in a list and carries the proof that the names ascend strictly. Two
maps with the same look-ups have the same list (`ext_get?`), so equality of maps is equality of
contents.

Every operation is described by what it does to `get?`.
-/

namespace Keepsake

/-- A finite map whose entries stand in strictly ascending order of their names. -/
structure NameMap (α : Type) where
  entries : List (String × α)
  ascending : entries.Pairwise (fun a b => a.1 < b.1)
deriving DecidableEq

namespace NameMap

variable {α : Type}

/-! ## Order of names -/

/-- Of two different names one comes first. -/
theorem lt_or_gt_of_ne {a b : String} (h : a ≠ b) : a < b ∨ b < a := by
  by_cases hab : a < b
  · exact Or.inl hab
  · by_cases hba : b < a
    · exact Or.inr hba
    · exact absurd (String.le_antisymm (String.not_lt.1 hba) (String.not_lt.1 hab)) h

/-! ## Look-up and update on ascending lists -/

/-- The value under `name`, in a list of entries. -/
def lookup (name : String) : List (String × α) → Option α
  | [] => none
  | (k, v) :: rest => if k = name then some v else lookup name rest

/-- Puts `value` under `name` at its place in the order, or over the present value. -/
def place (name : String) (value : α) : List (String × α) → List (String × α)
  | [] => [(name, value)]
  | (k, v) :: rest =>
    if name < k then (name, value) :: (k, v) :: rest
    else if name = k then (name, value) :: rest
    else (k, v) :: place name value rest

theorem mem_place {name : String} {value : α} {l : List (String × α)} {e : String × α}
    (h : e ∈ place name value l) : e = (name, value) ∨ e ∈ l := by
  induction l with
  | nil => simp [place] at h; exact Or.inl h
  | cons x rest ih =>
    obtain ⟨k, v⟩ := x
    unfold place at h
    split at h
    · simpa using h
    · split at h
      · rcases List.mem_cons.1 h with h | h
        · exact Or.inl h
        · exact Or.inr (List.mem_cons_of_mem _ h)
      · rcases List.mem_cons.1 h with h | h
        · exact Or.inr (h ▸ List.mem_cons_self ..)
        · rcases ih h with h | h
          · exact Or.inl h
          · exact Or.inr (List.mem_cons_of_mem _ h)

theorem pairwise_place (name : String) (value : α) {l : List (String × α)}
    (h : l.Pairwise (fun a b => a.1 < b.1)) : (place name value l).Pairwise (fun a b => a.1 < b.1) := by
  induction l with
  | nil => simp [place]
  | cons x rest ih =>
    obtain ⟨k, v⟩ := x
    rw [List.pairwise_cons] at h
    unfold place
    split
    · rename_i hlt
      refine List.pairwise_cons.2 ⟨?_, List.pairwise_cons.2 h⟩
      intro b hb
      rcases List.mem_cons.1 hb with rfl | hb
      · exact hlt
      · exact String.lt_trans hlt (h.1 b hb)
    · split
      · rename_i heq
        subst heq
        exact List.pairwise_cons.2 h
      · rename_i hnlt hne
        refine List.pairwise_cons.2 ⟨?_, ih h.2⟩
        intro b hb
        rcases mem_place hb with rfl | hb
        · rcases lt_or_gt_of_ne hne with hlt | hlt
          · exact absurd hlt hnlt
          · exact hlt
        · exact h.1 b hb

theorem lookup_place (name other : String) (value : α) (l : List (String × α)) :
    lookup other (place name value l) = if name = other then some value else lookup other l := by
  induction l with
  | nil => simp [place, lookup]
  | cons x rest ih =>
    obtain ⟨k, v⟩ := x
    unfold place
    split
    · simp [lookup]
    · split
      · rename_i heq
        subst heq
        by_cases h : name = other <;> simp [lookup, h]
      · rename_i hne
        simp only [lookup, ih]
        by_cases hk : k = other
        · subst hk
          simp [hne]
        · simp [hk]

/-- No entry of an ascending list stands under a name that is not above its head. -/
theorem lookup_eq_none_of_lt {name : String} {l : List (String × α)}
    (h : ∀ e ∈ l, name < e.1) : lookup name l = none := by
  induction l with
  | nil => rfl
  | cons x rest ih =>
    obtain ⟨k, v⟩ := x
    have hk : name < k := h (k, v) (List.mem_cons_self ..)
    have hne : k ≠ name := fun e => String.lt_irrefl name (e ▸ hk)
    simp [lookup, hne, ih fun e he => h e (List.mem_cons_of_mem _ he)]

theorem lookup_filter_ne (name other : String) (l : List (String × α)) :
    lookup other (l.filter (fun e => !decide (e.1 = name))) =
      if name = other then none else lookup other l := by
  induction l with
  | nil => simp [lookup]
  | cons x rest ih =>
    obtain ⟨k, v⟩ := x
    by_cases hk : k = name
    · subst hk
      simp only [List.filter_cons, decide_true, Bool.not_true, Bool.false_eq_true, ↓reduceIte, ih, lookup]
      by_cases h : k = other <;> simp [h]
    · simp only [List.filter_cons, hk, decide_false, Bool.not_false, ↓reduceIte, lookup, ih]
      by_cases ho : k = other
      · subst ho
        simp [Ne.symm hk]
      · simp [ho]

/-! ## The operations -/

/-- The map without entries. -/
def empty : NameMap α := ⟨[], List.Pairwise.nil⟩

/-- The value kept under `name`. -/
def get? (m : NameMap α) (name : String) : Option α := lookup name m.entries

/-- Whether something is kept under `name`. -/
def contains (m : NameMap α) (name : String) : Bool := (m.get? name).isSome

/-- Keeps `value` under `name`, in place of what was there. -/
def insert (m : NameMap α) (name : String) (value : α) : NameMap α :=
  ⟨place name value m.entries, pairwise_place name value m.ascending⟩

/-- Takes away what is kept under `name`. -/
def erase (m : NameMap α) (name : String) : NameMap α :=
  ⟨m.entries.filter (fun e => !decide (e.1 = name)), m.ascending.filter _⟩

/-- Number of entries. -/
def size (m : NameMap α) : Nat := m.entries.length

/-- Whether there are no entries. -/
def isEmpty (m : NameMap α) : Bool := m.entries.isEmpty

/-- The names, ascending. -/
def keys (m : NameMap α) : List String := m.entries.map (·.1)

/-- The values, in the order of their names. -/
def values (m : NameMap α) : List α := m.entries.map (·.2)

/-- The map with the given entries; of two entries with one name the later is kept. -/
def ofList (l : List (String × α)) : NameMap α := l.foldl (fun m e => m.insert e.1 e.2) empty

/-- Keeps the entries that pass a test. -/
def filter (p : String → α → Bool) (m : NameMap α) : NameMap α :=
  ⟨m.entries.filter (fun e => p e.1 e.2), m.ascending.filter _⟩

instance : Inhabited (NameMap α) := ⟨empty⟩

/-! ## What the operations do to look-ups -/

@[simp]
theorem get?_empty (name : String) : (empty : NameMap α).get? name = none := rfl

@[simp]
theorem get?_insert (m : NameMap α) (name other : String) (value : α) :
    (m.insert name value).get? other = if name = other then some value else m.get? other :=
  lookup_place name other value m.entries

@[simp]
theorem get?_erase (m : NameMap α) (name other : String) :
    (m.erase name).get? other = if name = other then none else m.get? other :=
  lookup_filter_ne name other m.entries

/-- The entries of a map are the pairs that look-up finds. -/
theorem mem_entries_iff (m : NameMap α) (name : String) (value : α) :
    (name, value) ∈ m.entries ↔ m.get? name = some value := by
  obtain ⟨l, h⟩ := m
  unfold get?
  simp only
  induction l with
  | nil => simp [lookup]
  | cons x rest ih =>
    obtain ⟨k, v⟩ := x
    rw [List.pairwise_cons] at h
    by_cases hk : k = name
    · subst hk
      have hnone : lookup k rest = none := lookup_eq_none_of_lt fun e he => h.1 e he
      simp only [List.mem_cons, Prod.mk.injEq, true_and, ih h.2, hnone, lookup, ↓reduceIte, reduceCtorEq,
        or_false, Option.some.injEq]
      exact eq_comm
    · simp [lookup, hk, ih h.2, Ne.symm hk]

theorem get?_of_mem {m : NameMap α} {e : String × α} (h : e ∈ m.entries) : m.get? e.1 = some e.2 :=
  (m.mem_entries_iff e.1 e.2).1 h

theorem mem_keys_iff (m : NameMap α) (name : String) : name ∈ m.keys ↔ m.contains name = true := by
  unfold keys contains
  rw [List.mem_map]
  constructor
  · rintro ⟨⟨k, v⟩, hmem, rfl⟩
    simp [(mem_entries_iff m k v).1 hmem]
  · intro h
    obtain ⟨v, hv⟩ := Option.isSome_iff_exists.1 h
    exact ⟨(name, v), (mem_entries_iff m name v).2 hv, rfl⟩

theorem mem_keys_of_get? {m : NameMap α} {name : String} {value : α}
    (h : m.get? name = some value) : name ∈ m.keys :=
  List.mem_map_of_mem ((m.mem_entries_iff name value).2 h)

/-- The names of a map ascend strictly. -/
theorem keys_ascending (m : NameMap α) : m.keys.Pairwise (· < ·) := by
  unfold keys
  rw [List.pairwise_map]
  exact m.ascending

/-- Two ascending lists with the same members are the same list. -/
theorem eq_of_mem_iff {l r : List (String × α)} (hl : l.Pairwise (fun a b => a.1 < b.1))
    (hr : r.Pairwise (fun a b => a.1 < b.1)) (h : ∀ e, e ∈ l ↔ e ∈ r) : l = r := by
  induction l generalizing r with
  | nil =>
    cases r with
    | nil => rfl
    | cons y ys => exact absurd ((h y).2 (List.mem_cons_self ..)) (List.not_mem_nil)
  | cons x xs ih =>
    cases r with
    | nil => exact absurd ((h x).1 (List.mem_cons_self ..)) (List.not_mem_nil)
    | cons y ys =>
      rw [List.pairwise_cons] at hl hr
      have hxy : x = y := by
        rcases List.mem_cons.1 ((h x).1 (List.mem_cons_self ..)) with hx | hx
        · exact hx
        · rcases List.mem_cons.1 ((h y).2 (List.mem_cons_self ..)) with hy | hy
          · exact hy.symm
          · exact absurd (String.lt_trans (hl.1 y hy) (hr.1 x hx)) (String.lt_irrefl _)
      subst hxy
      congr 1
      refine ih hl.2 hr.2 fun e => ?_
      constructor
      · intro he
        rcases List.mem_cons.1 ((h e).1 (List.mem_cons_of_mem _ he)) with rfl | hmem
        · exact absurd (hl.1 e he) (String.lt_irrefl _)
        · exact hmem
      · intro he
        rcases List.mem_cons.1 ((h e).2 (List.mem_cons_of_mem _ he)) with rfl | hmem
        · exact absurd (hr.1 e he) (String.lt_irrefl _)
        · exact hmem

/-- Maps with the same look-ups are equal. -/
theorem ext_get? {m n : NameMap α} (h : ∀ name, m.get? name = n.get? name) : m = n := by
  have hentries : m.entries = n.entries := by
    refine eq_of_mem_iff m.ascending n.ascending fun e => ?_
    obtain ⟨k, v⟩ := e
    rw [mem_entries_iff, mem_entries_iff, h]
  obtain ⟨l, hl⟩ := m
  obtain ⟨r, hr⟩ := n
  cases hentries
  rfl

theorem get?_foldl_insert {l : List (String × α)} {m : NameMap α}
    (hl : l.Pairwise (fun a b => a.1 < b.1)) (name : String) :
    (l.foldl (fun m e => m.insert e.1 e.2) m).get? name = (lookup name l).or (m.get? name) := by
  induction l generalizing m with
  | nil => rfl
  | cons e rest ih =>
    obtain ⟨k, v⟩ := e
    rw [List.pairwise_cons] at hl
    rw [List.foldl_cons, ih hl.2, get?_insert, lookup]
    split
    · rename_i hk
      subst hk
      rw [lookup_eq_none_of_lt hl.1]
      rfl
    · rfl

/-- In a map of ascending entries the names stand for what they do there. -/
theorem get?_ofList {l : List (String × α)} (hl : l.Pairwise (fun a b => a.1 < b.1))
    (name : String) : (ofList l).get? name = lookup name l := by
  rw [ofList, get?_foldl_insert hl, get?_empty, Option.or_none]

/-- Putting the entries of a map together again gives the map. -/
theorem ofList_entries (m : NameMap α) : ofList m.entries = m :=
  ext_get? fun name => get?_ofList m.ascending name

end NameMap

end Keepsake
