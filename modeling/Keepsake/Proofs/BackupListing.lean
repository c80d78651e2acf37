import Keepsake.Proofs.BackupSpelling
/-!
# A backup is listed as what it is

The name of a timestamped backup tells its moment and counter, so the backup is listed once, with
just these. The listing is by moment and then by counter: the rank that it is sorted by is a number
in a mixed radix, and such numbers are in the order of their digits (`inRadix_lt_iff`).
-/

namespace Keepsake

variable {ω : Type}

/-! ## Mixed radices -/

/-- The number with some digits behind those of `start`, each with its base. -/
def inRadix (start : Nat) : List (Nat × Nat) → Nat
  | [] => start
  | (base, digit) :: rest => inRadix (start * base + digit) rest

theorem mul_add_lt_iff {n a b x y : Nat} (hx : x < n) (hy : y < n) :
    a * n + x < b * n + y ↔ a < b ∨ a = b ∧ x < y := by
  rcases Nat.lt_trichotomy a b with hlt | rfl | hlt
  · have hstep : (a + 1) * n ≤ b * n := Nat.mul_le_mul_right n hlt
    rw [Nat.succ_mul] at hstep
    omega
  · simp
  · have hstep : (b + 1) * n ≤ a * n := Nat.mul_le_mul_right n hlt
    rw [Nat.succ_mul] at hstep
    omega

/-- Numbers in one mixed radix are in the order of the first digit that differs. -/
theorem inRadix_lt_iff {row : List (Nat × Nat × Nat)} (h : ∀ r ∈ row, r.2.1 < r.1 ∧ r.2.2 < r.1)
    (a b : Nat) :
    inRadix a (row.map fun r => (r.1, r.2.1)) < inRadix b (row.map fun r => (r.1, r.2.2)) ↔
      List.Lex (· < ·) (a :: row.map fun r => r.2.1) (b :: row.map fun r => r.2.2) := by
  induction row generalizing a b with
  | nil => simp [inRadix, List.cons_lex_cons_iff]
  | cons r row ih =>
    obtain ⟨n, x, y⟩ := r
    simp only [List.forall_mem_cons] at h
    obtain ⟨⟨hx, hy⟩, hrow⟩ := h
    have heq : a * n + x = b * n + y ↔ a = b ∧ x = y := by
      constructor
      · exact Stamp.eq_of_mul_add_eq hx hy
      · rintro ⟨rfl, rfl⟩
        rfl
    simp only [List.map_cons, inRadix]
    rw [ih hrow]
    simp only [List.cons_lex_cons_iff, mul_add_lt_iff hx hy, heq]
    grind

/-! ## The order of backups -/

/-- The fields of a moment, the greatest unit first. -/
def Stamp.fields (s : Stamp) : List Nat := [s.year, s.month, s.day, s.hour, s.minute, s.second]

namespace BackupEntry

/-- What a backup is listed by: the moment in its name, field by field, and then the counter. -/
def key (e : BackupEntry) : List Nat := (e.takenAt.map Stamp.fields).getD [] ++ [e.counter]

/-- Whether a backup is listed before another, by the first field of their keys that differs. -/
def Before (a b : BackupEntry) : Prop := List.Lex (· < ·) a.key b.key

theorem key_of_takenAt {e : BackupEntry} {stamp : Stamp} (h : e.takenAt = some stamp) :
    e.key = stamp.fields ++ [e.counter] := by
  simp [key, h]

theorem rank_of_takenAt {e : BackupEntry} {stamp : Stamp} (h : e.takenAt = some stamp) :
    e.rank = stamp.rank * counterLimit + e.counter := by
  simp [rank, h]

/-- Ranks are in the order of the keys. -/
theorem rank_lt_iff {a b : BackupEntry} {s t : Stamp} (ha : a.takenAt = some s)
    (hb : b.takenAt = some t) (hs : s.isValid = true) (ht : t.isValid = true)
    (hac : a.counter < counterLimit) (hbc : b.counter < counterLimit) :
    a.rank < b.rank ↔ a.Before b := by
  obtain ⟨hs₁, hs₂, hs₃, hs₄, hs₅⟩ := Stamp.bounds_of_isValid hs
  obtain ⟨ht₁, ht₂, ht₃, ht₄, ht₅⟩ := Stamp.bounds_of_isValid ht
  have hrow : ∀ r ∈ [(13, s.month, t.month), (32, s.day, t.day), (24, s.hour, t.hour),
      (60, s.minute, t.minute), (61, s.second, t.second), (counterLimit, a.counter, b.counter)],
      r.2.1 < r.1 ∧ r.2.2 < r.1 := by
    simp only [List.mem_cons, List.not_mem_nil, or_false, forall_eq_or_imp, forall_eq]
    omega
  rw [Before, key_of_takenAt ha, key_of_takenAt hb, rank_of_takenAt ha, rank_of_takenAt hb]
  exact inRadix_lt_iff hrow s.year t.year

variable {name file : String} {files : List String}

theorem ofFile?_eq_some_iff {e : BackupEntry} :
    ofFile? name file = some e ↔ e.file = file ∧
      ∃ stamp, e.takenAt = some stamp ∧ readBackup name file = some (stamp, e.counter) := by
  constructor
  · intro h
    unfold ofFile? at h
    split at h
    · cases h
    · obtain ⟨⟨stamp, counter⟩, hread, rfl⟩ := Option.map_eq_some_iff.1 h
      exact ⟨rfl, stamp, rfl, hread⟩
  · rintro ⟨rfl, stamp, htaken, hread⟩
    have hne : e.file ≠ rotatingName name := by
      intro heq
      exact not_isMarked_rotatingName name name (heq ▸ isMarked_of_readBackup hread)
    obtain ⟨file, takenAt, counter⟩ := e
    cases htaken
    unfold ofFile?
    rw [if_neg hne, hread, Option.map_some]

/-- How the backups among files are listed: the timestamped ones, and the rotating one. -/
structure Listing (name : String) (files : List String) (stamped rotating : List BackupEntry) :
    Prop where
  /-- each file that is read as a backup is listed by what it is read as -/
  mem_iff : ∀ e, e ∈ stamped ↔ e.file ∈ files ∧
    ∃ stamp, e.takenAt = some stamp ∧ readBackup name e.file = some (stamp, e.counter)
  nodup : stamped.Nodup
  /-- by moment, and by counter within a moment -/
  sorted : stamped.Pairwise fun a b => ¬b.Before a
  last : rotating = if rotatingName name ∈ files then [⟨rotatingName name, none, 0⟩] else []

theorem sorted_timestampedOf (name : String) (files : List String) :
    (timestampedOf name files).Pairwise fun a b => ¬b.Before a := by
  refine (pairwise_timestampedOf name files).imp_of_mem ?_
  intro a b ha hb hrank
  obtain ⟨-, s, hs, hreada⟩ := ofFile?_eq_some_iff.1 (mem_timestampedOf.1 ha).2
  obtain ⟨-, t, ht, hreadb⟩ := ofFile?_eq_some_iff.1 (mem_timestampedOf.1 hb).2
  obtain ⟨_, hspella⟩ := readBackup_eq_some_iff.1 hreada
  obtain ⟨_, hspellb⟩ := readBackup_eq_some_iff.1 hreadb
  rw [← rank_lt_iff ht hs hspellb.writable.valid hspella.writable.valid hspellb.bound hspella.bound]
  exact Nat.not_lt.2 hrank

theorem exists_listing (name : String) (hf : files.Nodup) :
    ∃ stamped rotating, listOf name files = stamped ++ rotating ∧
      Listing name files stamped rotating := by
  refine ⟨timestampedOf name files, _, rfl, ?_, nodup_timestampedOf hf,
    sorted_timestampedOf name files, by simp⟩
  intro e
  rw [mem_timestampedOf, ofFile?_eq_some_iff]
  simp

/-- A file with the name of a backup is listed once, as that backup. -/
theorem Listing.filter_eq {stamped rotating : List BackupEntry}
    (h : Listing name files stamped rotating) {stamp : Stamp} {counter : Nat}
    (hs : stamp.IsWritable) (hc : counter < counterLimit)
    (hfile : stampedName name stamp counter ∈ files) :
    (stamped ++ rotating).filter (fun e => e.file = stampedName name stamp counter)
      = [BackupEntry.stamped name stamp counter] := by
  have hread := readBackup_stampedName name hs hc
  have hrotating : rotating.filter (fun e => e.file = stampedName name stamp counter) = [] := by
    have hne : rotatingName name ≠ stampedName name stamp counter := by
      intro heq
      exact not_isMarked_rotatingName name name (heq ▸ isMarked_timestamped name stamp counter)
    rw [h.last]
    split <;> simp [hne]
  have hmem : BackupEntry.stamped name stamp counter ∈ stamped :=
    (h.mem_iff _).2 ⟨hfile, stamp, rfl, hread⟩
  have honly : ∀ e ∈ stamped, e.file = stampedName name stamp counter →
      e = BackupEntry.stamped name stamp counter := by
    rintro ⟨_, takenAt, k⟩ he rfl
    obtain ⟨-, m, rfl, hm⟩ := (h.mem_iff _).1 he
    simp only [hread, Option.some.injEq, Prod.mk.injEq] at hm
    obtain ⟨rfl, rfl⟩ := hm
    rfl
  have hstamped : stamped.filter (fun e => e.file = stampedName name stamp counter)
      = stamped.filter (· == BackupEntry.stamped name stamp counter) := by
    apply List.filter_congr
    intro e he
    rw [Bool.eq_iff_iff, decide_eq_true_eq, beq_iff_eq]
    constructor
    · exact honly e he
    · rintro rfl
      rfl
  rw [List.filter_append, hrotating, List.append_nil, hstamped, List.filter_beq,
    h.nodup.count, if_pos hmem]
  rfl

end BackupEntry

/-! ## Listing the folder -/

namespace Storage

variable {s : Storage} {d : Disk} {dir : Path}

theorem base_of_home (hb : s.base ≠ "") (h : s.home d = .ok dir) :
    d.locate s.base = .ok (.folder dir) := by
  unfold home at h
  rw [if_neg (by simpa using hb)] at h
  split at h
  · cases h
  · next hl =>
    cases h
    exact hl
  · split at h <;> cases h

/-- What is listed are the names of the files in the folder of the storage. -/
theorem list_eq_ok {w w' : World ω} {files : List String} (h : s.list w = (.ok files, w')) :
    ∃ dir f, w.disk.locate s.base = .ok (.folder dir) ∧ w.disk.folder? dir = some f ∧
      files = f.keys := by
  rcases call_cases s .list _ w with hcall | ⟨-, hstop, -⟩
  · unfold list at h
    rw [hcall, Act.get_bind, World.called_disk] at h
    unfold Disk.list at h
    split at h
    · cases h
    · next dir hl =>
      split at h
      · next f hf =>
        cases h
        exact ⟨dir, f, hl, hf, rfl⟩
      · cases h
    · split at h <;> cases h
  · unfold list at h
    rw [h] at hstop
    exact absurd rfl (hstop files)

end Storage

/-! ## What the names tell -/

/-- What is told by the names of a save-file's timestamped backups, written, read and listed. -/
structure NamesTell (ω : Type) (s : Storage) (name : String) : Prop where
  /-- a name is read as the moment and the counter that it was made of -/
  read : ∀ stamp counter, stamp.IsWritable → counter < counterLimit →
    readBackup name (stampedName name stamp counter) = some (stamp, counter)
  different : ∀ stamp stamp' counter counter', stamp.IsWritable → stamp'.IsWritable →
    counter < counterLimit → counter' < counterLimit →
    stampedName name stamp counter = stampedName name stamp' counter' →
      stamp = stamp' ∧ counter = counter'
  /-- a listing has the backups among the files of the folder -/
  listing : ∀ (w w' : World ω) entries, listBackups s name w = (.ok entries, w') →
    ∃ dir f stamped rotating, w.disk.locate s.base = .ok (.folder dir) ∧
      w.disk.folder? dir = some f ∧ entries = stamped ++ rotating ∧
      BackupEntry.Listing name f.keys stamped rotating
  /-- behind a backup that was taken they are listed, that one once and as what it is -/
  listed : ∀ (w w' : World ω) stamp file, stamp.IsWritable →
    takeBackup s name .timestamped stamp w = (.ok (some file), w') →
    ∃ counter, file = stampedName name stamp counter ∧
      (s.base ≠ "" → s.Calm w' → ∃ entries w'', listBackups s name w' = (.ok entries, w'')) ∧
      ∀ entries w'', counter < counterLimit → listBackups s name w' = (.ok entries, w'') →
        entries.filter (fun e => e.file = file) = [.stamped name stamp counter]

theorem listBackups_listing {s : Storage} {name : String} {w w' : World ω}
    {entries : List BackupEntry} (h : listBackups s name w = (.ok entries, w')) :
    ∃ dir f stamped rotating, w.disk.locate s.base = .ok (.folder dir) ∧
      w.disk.folder? dir = some f ∧ entries = stamped ++ rotating ∧
      BackupEntry.Listing name f.keys stamped rotating := by
  obtain ⟨files, w₁, hlist, h⟩ := Act.bind_eq_ok h
  cases h
  obtain ⟨dir, f, hbase, hf, rfl⟩ := Storage.list_eq_ok hlist
  obtain ⟨stamped, rotating, hentries, hlisting⟩ :=
    BackupEntry.exists_listing name (f.keys_ascending.imp String.ne_of_lt)
  exact ⟨dir, f, stamped, rotating, hbase, hf, hentries, hlisting⟩

/-- A timestamped backup that was taken is a file of the home. -/
theorem takeBackup_eq_ok {s : Storage} {name file : String} (hn : '/' ∉ name.toList) {stamp : Stamp}
    {w w' : World ω} (h : takeBackup s name .timestamped stamp w = (.ok (some file), w')) :
    ∃ dir f counter, file = stampedName name stamp counter ∧ s.home w'.disk = .ok dir ∧
      w'.disk.folder? dir = some f ∧ file ∈ f.keys := by
  obtain ⟨counter, htarget, -⟩ := exists_backupTarget hn s w.disk stamp
  have hend := takeBackup_end s name .timestamped stamp w
  rw [h] at hend
  cases hend with
  | @taken _ _ dir data _ _ chosen source place there =>
    cases htarget.symm.trans chosen
    have hentry := isEntryName_timestamped hn stamp counter
    obtain rfl := Storage.locate_entry hentry place
    obtain ⟨hhome, -⟩ := Storage.home_of_locate_entry hentry place
    have hsame := Disk.sameFolders_setFile w.disk dir (stampedName name stamp counter) data
    have hfile : (w.disk.setFile dir (stampedName name stamp counter) data).file? dir
        (stampedName name stamp counter) = some data := Disk.file?_setFile_self there
    obtain ⟨f, hf, hget⟩ := Option.bind_eq_some_iff.1 hfile
    exact ⟨dir, f, counter, rfl, Storage.home_of_sameFolders hsame hhome, hf,
      NameMap.mem_keys_of_get? hget⟩
  | stopped _ stop => exact absurd rfl (stop (some file))

/-- Backups are named and listed by the moment and the counter with which they were taken. -/
theorem namesTell_of_no_slash {name : String} (hn : '/' ∉ name.toList) (s : Storage) :
    NamesTell ω s name := by
  refine ⟨fun _ _ => readBackup_stampedName name, fun _ _ _ _ => stampedName_injective,
    fun _ _ _ => listBackups_listing, ?_⟩
  intro w w' stamp file hs htaken
  obtain ⟨dir, f, counter, rfl, hhome, hf, hfile⟩ := takeBackup_eq_ok hn htaken
  refine ⟨counter, rfl, ?_, ?_⟩
  · intro hb hcalm
    have hrun : listBackups s name w' = _ ∨ _ := listBackups_run (Storage.base_of_home hb hhome) hf
    rcases hrun with h | ⟨hno, -⟩
    · exact ⟨_, _, h⟩
    · exact absurd hcalm hno
  · intro entries w'' hc hlist
    obtain ⟨dir', f', stamped, rotating, hbase, hf', rfl, hlisting⟩ := listBackups_listing hlist
    rw [Storage.home_of_base hbase] at hhome
    cases hhome
    rw [hf] at hf'
    cases hf'
    exact hlisting.filter_eq hs hc hfile

/-- The second of two backups of one second is listed with the counter one. -/
theorem namesTell_sample :
    '/' ∉ "auto".toList ∧ NamesTell Unit (.plain "/") "auto" ∧
      ∃ entries w, listBackups (.plain "/") "auto" Sample.doubled = (.ok entries, w) ∧
        entries.filter (fun e => e.file = stampedName "auto" (Sample.second 9) 1)
          = [.stamped "auto" (Sample.second 9) 1] := by
  have hn : '/' ∉ "auto".toList := by decide
  have h : NamesTell Unit (.plain "/") "auto" := namesTell_of_no_slash hn (.plain "/")
  have hclock : (Sample.backedUp Sample.unsaved).clock = Sample.second 9 := by decide +kernel
  have htaken : takeBackup (.plain "/") "auto" .timestamped (Sample.second 9)
      (Sample.backedUp Sample.unsaved)
      = (.ok (some (stampedName "auto" (Sample.second 9) 1)), Sample.doubled) := by
    refine Prod.ext (by decide +kernel) ?_
    rw [← hclock]
    rfl
  obtain ⟨counter, hfile, hanswers, honce⟩ := h.listed _ _ _ _ (by decide) htaken
  obtain rfl := withCounter_injective hfile
  obtain ⟨entries, w, hlist⟩ := hanswers (by decide) nofun
  exact ⟨hn, h, entries, w, hlist, honce entries w (by decide) hlist⟩

end Keepsake
