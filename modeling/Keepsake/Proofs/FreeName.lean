import Keepsake.Proofs.NameSpace
import Keepsake.Proofs.NextBackup
/-!
# A timestamped backup finds a free name

The counters of one moment are tried in their order, as many as there are files and one more. All
of them name different files of the home, so they cannot all be taken (`exists_not_contains`): the
name that is found is the one with the least free counter, and it would still be that one if more
counters were tried. How many files there are elsewhere therefore makes no difference.
-/

namespace Keepsake

/-! ## Counters -/

theorem Decimal.text_injective {a b : Nat} (h : text a = text b) : a = b := by
  have hdigits : Nat.toDigits 10 a = Nat.toDigits 10 b := String.ofList_injective h
  calc
    a = Nat.ofDigitChars 10 (Nat.toDigits 10 a) 0 := Nat.ofDigitChars_ten_toDigits.symm
    _ = Nat.ofDigitChars 10 (Nat.toDigits 10 b) 0 := by rw [hdigits]
    _ = b := Nat.ofDigitChars_ten_toDigits

theorem withCounter_injective {base : String} {a b : Nat}
    (h : withCounter base a = withCounter base b) : a = b := by
  have hself : ∀ n, base ≠ base ++ "." ++ Decimal.text n := by
    intro n hn
    have := congrArg (fun s => s.toList.length) hn
    simp at this
  unfold withCounter at h
  split at h
  · next ha =>
    split at h
    · next hb => rw [ha, hb]
    · exact absurd h (hself b)
  · split at h
    · exact absurd h.symm (hself a)
    · refine Decimal.text_injective (String.toList_inj.1 ?_)
      have := congrArg String.toList h
      simpa using this

/-! ## The search -/

/-- The search stops at the first free counter, if one is free among those it tries. -/
theorem freeName_spec (taken : String → Bool) (base : String) (counter : Nat) {tries : Nat}
    (h : ∃ k < tries, taken (withCounter base (counter + k)) = false) :
    ∃ k, freeName taken base counter tries = withCounter base (counter + k) ∧
      taken (withCounter base (counter + k)) = false ∧
      ∀ j < k, taken (withCounter base (counter + j)) = true := by
  induction tries generalizing counter with
  | zero =>
    obtain ⟨k, hk, -⟩ := h
    exact absurd hk (Nat.not_lt_zero k)
  | succ tries ih =>
    unfold freeName
    split
    · next htaken =>
      obtain ⟨k, hk, hfree⟩ := h
      cases k with
      | zero =>
        rw [Nat.add_zero, htaken] at hfree
        cases hfree
      | succ k =>
        have hshift : ∀ j, counter + (j + 1) = counter + 1 + j := by omega
        obtain ⟨m, heq, hm, hbefore⟩ :=
          ih (counter + 1) ⟨k, Nat.lt_of_succ_lt_succ hk, by rw [← hshift]; exact hfree⟩
        refine ⟨m + 1, by rw [heq, ← hshift], by rw [hshift]; exact hm, ?_⟩
        intro j hj
        cases j with
        | zero => exact htaken
        | succ j =>
          rw [hshift]
          exact hbefore j (by omega)
    · next hfree =>
      exact ⟨0, rfl, by simpa using hfree, by simp⟩

/-- A counter is free, and those before it are taken. -/
structure FirstFree (taken : String → Bool) (base : String) (counter : Nat) : Prop where
  free : taken (withCounter base counter) = false
  before : ∀ j < counter, taken (withCounter base j) = true

theorem FirstFree.unique {taken : String → Bool} {base : String} {a b : Nat}
    (ha : FirstFree taken base a) (hb : FirstFree taken base b) : a = b := by
  rcases Nat.lt_trichotomy a b with hlt | rfl | hlt
  · have hfree := ha.free
    rw [hb.before a hlt] at hfree
    cases hfree
  · rfl
  · have hfree := hb.free
    rw [ha.before b hlt] at hfree
    cases hfree

theorem exists_firstFree {taken : String → Bool} {base : String} {tries : Nat}
    (h : ∃ k < tries, taken (withCounter base k) = false) :
    ∃ counter, freeName taken base 0 tries = withCounter base counter ∧
      FirstFree taken base counter := by
  obtain ⟨k, hk, hfree, hbefore⟩ := freeName_spec taken base 0 (by simpa using h)
  simp only [Nat.zero_add] at hk hfree hbefore
  exact ⟨k, hk, hfree, hbefore⟩

/-- A search that tries the first free counter ends there, however many more it would try. -/
theorem FirstFree.freeName_eq {taken : String → Bool} {base : String} {counter tries : Nat}
    (h : FirstFree taken base counter) (ht : counter < tries) :
    freeName taken base 0 tries = withCounter base counter := by
  obtain ⟨k, hk, hfirst⟩ := exists_firstFree ⟨counter, ht, h.free⟩
  rw [hk, hfirst.unique h]

/-! ## There are not enough files -/

theorem le_foldl_add {α : Type} (g : α → Nat) {x : α} {l : List α} (h : x ∈ l) (n : Nat) :
    g x ≤ l.foldl (fun n y => n + g y) n := by
  have hstart : ∀ (l : List α) (n : Nat), n ≤ l.foldl (fun n y => n + g y) n := by
    intro l
    induction l with
    | nil => exact fun n => Nat.le_refl n
    | cons y l ih => exact fun n => Nat.le_trans (Nat.le_add_right n (g y)) (ih _)
  induction l generalizing n with
  | nil => cases h
  | cons y l ih =>
    rcases List.mem_cons.1 h with rfl | h
    · exact Nat.le_trans (Nat.le_add_left _ _) (hstart l _)
    · exact ih h _

theorem Disk.size_le_fileCount {d : Disk} {path : Path} {f : Folder} (h : d.folder? path = some f) :
    f.size ≤ d.fileCount := by
  have hmem : f ∈ d.folders.values :=
    List.mem_map.2 ⟨(path.text, f), (NameMap.mem_entries_iff _ path.text f).2 h, rfl⟩
  exact le_foldl_add NameMap.size hmem 0

/-- What is there under an entry name is one of the files of the home. -/
theorem Storage.exists_of_contains {s : Storage} {d : Disk} {name : String} (hn : IsEntryName name)
    (h : s.contains d name = true) :
    ∃ dir f, s.home d = .ok dir ∧ d.folder? dir = some f ∧ name ∈ f.keys := by
  rw [contains_eq] at h
  obtain ⟨data, hdata⟩ := Option.isSome_iff_exists.1 h
  unfold content? at hdata
  split at hdata
  · next path file hl =>
    obtain ⟨dir, hdir, -, hplace⟩ := home_of_locate hn hl
    obtain ⟨rfl, rfl⟩ : path = dir ∧ file = name := by simpa using hplace
    obtain ⟨f, hf, hget⟩ := Option.bind_eq_some_iff.1 hdata
    exact ⟨path, f, hdir, hf, NameMap.mem_keys_of_get? hget⟩
  · cases hdata

/-- Different names under which something is there are no more than the files of the home. -/
theorem Storage.length_le_size {s : Storage} {d : Disk} {names : List String} {dir : Path}
    {f : Folder} (hdir : s.home d = .ok dir) (hf : d.folder? dir = some f) (hnodup : names.Nodup)
    (h : ∀ name ∈ names, IsEntryName name ∧ s.contains d name = true) : names.length ≤ f.size := by
  have hsub : names ⊆ f.keys := by
    intro name hname
    obtain ⟨dir', f', hdir', hf', hmem⟩ := exists_of_contains (h name hname).1 (h name hname).2
    rw [hdir] at hdir'
    cases hdir'
    rw [hf] at hf'
    cases hf'
    exact hmem
  have hlength := hnodup.length_le_of_subset hsub
  rwa [NameMap.keys, List.length_map] at hlength

theorem nodup_withCounter (base : String) (n : Nat) :
    ((List.range n).map (withCounter base)).Nodup :=
  List.pairwise_map.2 (List.nodup_range.imp fun hne heq => hne (withCounter_injective heq))

/-- Of more names than there are files one is free. -/
theorem exists_not_contains (s : Storage) (d : Disk) {base : String}
    (hbase : ∀ k, IsEntryName (withCounter base k)) :
    ∃ k < d.fileCount + 1, s.contains d (withCounter base k) = false := by
  apply Decidable.byContradiction
  intro hno
  have htaken : ∀ k < d.fileCount + 1, s.contains d (withCounter base k) = true := by
    intro k hk
    rw [← Bool.not_eq_false]
    exact fun hfree => hno ⟨k, hk, hfree⟩
  obtain ⟨dir, f, hdir, hf, -⟩ :=
    Storage.exists_of_contains (hbase 0) (htaken 0 (Nat.succ_pos _))
  have hlength := Storage.length_le_size hdir hf (nodup_withCounter base (d.fileCount + 1)) (by
    intro name hname
    obtain ⟨k, hk, rfl⟩ := List.mem_map.1 hname
    exact ⟨hbase k, htaken k (List.mem_range.1 hk)⟩)
  have hsize := Disk.size_le_fileCount hf
  rw [List.length_map, List.length_range] at hlength
  omega

/-! ## The name of the next backup -/

variable {s : Storage} {d d' : Disk} {name : String}

/-- A timestamped backup is taken under the first name that is free. -/
theorem exists_backupTarget (hn : '/' ∉ name.toList) (s : Storage) (d : Disk) (stamp : Stamp) :
    ∃ counter, backupTarget s d name .timestamped stamp =
        some (withCounter (timestampedName name stamp) counter) ∧
      FirstFree (s.contains d) (timestampedName name stamp) counter := by
  obtain ⟨k, hk, hfirst⟩ :=
    exists_firstFree (exists_not_contains s d (isEntryName_timestamped hn stamp))
  exact ⟨k, congrArg some hk, hfirst⟩

/-- Tries beyond the first free counter are never made. -/
theorem findFreeName_apply_eq {ω ε : Type} {base : String} {counter tries tries' : Nat}
    {w : World ω} (h : ∃ k < tries, s.contains w.disk (withCounter base (counter + k)) = false)
    (h' : ∃ k < tries', s.contains w.disk (withCounter base (counter + k)) = false) :
    (findFreeName s base counter tries : Act ω ε String) w = findFreeName s base counter tries' w := by
  induction tries generalizing counter tries' w with
  | zero =>
    obtain ⟨k, hk, -⟩ := h
    exact absurd hk (Nat.not_lt_zero k)
  | succ tries ih =>
    cases tries' with
    | zero =>
      obtain ⟨k, hk, -⟩ := h'
      exact absurd hk (Nat.not_lt_zero k)
    | succ tries' =>
      unfold findFreeName
      rcases s.probe_cases (ε := ε) (withCounter base counter) w with hp | ⟨-, p, hp⟩
      · rw [Act.bind_of_ok hp, Act.bind_of_ok hp]
        split
        · next htaken =>
          -- the first counter is not the free one, so it is among the others
          have shift : ∀ {tries : Nat},
              (∃ k < tries + 1, s.contains w.disk (withCounter base (counter + k)) = false) →
                ∃ k < tries, s.contains w.disk (withCounter base (counter + 1 + k)) = false := by
            rintro tries ⟨k, hk, hfree⟩
            cases k with
            | zero =>
              rw [Nat.add_zero, htaken] at hfree
              cases hfree
            | succ k =>
              refine ⟨k, Nat.lt_of_succ_lt_succ hk, ?_⟩
              rwa [Nat.add_assoc, Nat.add_comm 1 k]
          exact ih (w := w.called) (shift h) (shift h')
        · rfl
      · rw [Act.bind_apply, Act.bind_apply, hp]

end Keepsake
