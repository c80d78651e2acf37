import Keepsake.Proofs.AllOrNothing
import Keepsake.Proofs.BackupFolder
import Keepsake.Proofs.BackupName
/-!
# The order in which backups were taken

A run takes timestamped backups of a save-file and prunes them, while the clock never goes back and
other files change as they like. The listing shows the backups that are left, by second and counter.
The seconds are those in which the backups were taken, so they are listed in that order; but within
a second the counters count only as long as nothing is missing below them. Where an older backup of
the second was pruned and a newer one is there (`BackupEntry.Gap`), the next one gets the name that
has become free, and stands before the newer one.

So a run is listed and pruned in the order of its backups if it takes none into a gap
(`BackupRun.Shown`), and one taken into a gap is never the last (`BackupEntry.last_iff`).
-/

namespace Keepsake

variable {ω : Type}

/-! ## Backups of a second -/

namespace BackupEntry

/-- The timestamped backup of a moment with a counter. -/
def stamped (name : String) (stamp : Stamp) (counter : Nat) : BackupEntry :=
  ⟨stampedName name stamp counter, some stamp, counter⟩

/-- Of a second there is a backup that was taken with more counters in use than are now. -/
def Gap (name : String) (stamp : Stamp) (held : List BackupEntry) : Prop :=
  ∃ j k, j < k ∧ stamped name stamp k ∈ held ∧ stamped name stamp j ∉ held

/-- A backup that was taken not later than some moment. -/
def IsTakenBy (name : String) (now : Stamp) (e : BackupEntry) : Prop :=
  ∃ stamp counter, e = stamped name stamp counter ∧ stamp.IsWritable ∧ counter < counterLimit ∧
    stamp.rank ≤ now.rank

variable {name : String} {stamp now : Stamp} {counter : Nat}

theorem ofFile?_stampedName (hs : stamp.IsWritable) (hc : counter < counterLimit) :
    ofFile? name (stampedName name stamp counter) = some (stamped name stamp counter) := by
  have hmarked : IsMarked name (stampedName name stamp counter) :=
    isMarked_timestamped name stamp counter
  have hrotating : stampedName name stamp counter ≠ rotatingName name := by
    intro heq
    exact not_isMarked_rotatingName name name (heq ▸ hmarked)
  unfold ofFile?
  rw [if_neg hrotating, readBackup_stampedName name hs hc]
  rfl

/-- The second of a backup as a number that grows with time. -/
def second (e : BackupEntry) : Nat := (e.takenAt.map Stamp.rank).getD 0

theorem rank_eq (e : BackupEntry) : e.rank = e.second * counterLimit + e.counter := rfl

theorem rank_stamped (name : String) (stamp : Stamp) (counter : Nat) :
    (stamped name stamp counter).rank = stamp.rank * counterLimit + counter := rfl

/-- A backup of an earlier second comes first. -/
theorem rank_lt_of_second_lt {a b : BackupEntry} (hc : a.counter < counterLimit)
    (h : a.second < b.second) : a.rank < b.rank :=
  calc
    a.rank = a.second * counterLimit + a.counter := a.rank_eq
    _ < a.second * counterLimit + counterLimit := by omega
    _ = (a.second + 1) * counterLimit := (Nat.succ_mul _ _).symm
    _ ≤ b.second * counterLimit := Nat.mul_le_mul_right _ h
    _ ≤ b.rank := Nat.le_add_right _ _

namespace IsTakenBy

variable {e : BackupEntry}

theorem counter_lt (h : e.IsTakenBy name now) : e.counter < counterLimit := by
  obtain ⟨_, _, rfl, -, hc, -⟩ := h
  exact hc

theorem second_le (h : e.IsTakenBy name now) : e.second ≤ now.rank := by
  obtain ⟨_, _, rfl, -, -, hle⟩ := h
  exact hle

theorem mono (h : e.IsTakenBy name now) {later : Stamp} (hl : now.rank ≤ later.rank) :
    e.IsTakenBy name later := by
  obtain ⟨stamp, counter, he, hs, hc, hle⟩ := h
  exact ⟨stamp, counter, he, hs, hc, Nat.le_trans hle hl⟩

/-- The number of a second tells the moment in the name. -/
theorem takenAt_eq {a b : BackupEntry} (ha : a.IsTakenBy name now) (hb : b.IsTakenBy name now)
    (h : a.second = b.second) : a.takenAt = b.takenAt := by
  obtain ⟨stamp, _, rfl, hs, -, -⟩ := ha
  obtain ⟨stamp', _, rfl, hs', -, -⟩ := hb
  exact congrArg some (Stamp.rank_injective hs.valid hs'.valid h)

end IsTakenBy

/-- With counters from zero on there are as many backups. -/
theorem le_length_of_counters {held : List BackupEntry} {n : Nat}
    (h : ∀ j < n, stamped name stamp j ∈ held) : n ≤ held.length := by
  have hsub : (List.range n).map (stamped name stamp) ⊆ held := by
    intro e he
    obtain ⟨j, hj, rfl⟩ := List.mem_map.1 he
    exact h j (List.mem_range.1 hj)
  have hnodup : ((List.range n).map (stamped name stamp)).Nodup :=
    List.pairwise_map.2 (List.nodup_range.imp fun hne heq => hne (congrArg BackupEntry.counter heq))
  have hlength := hnodup.length_le_of_subset hsub
  rwa [List.length_map, List.length_range] at hlength

/-- A second in which no backup was taken has no gap. -/
theorem not_gap_of_second_lt {held : List BackupEntry} (h : ∀ e ∈ held, e.second < stamp.rank) :
    ¬Gap name stamp held := by
  rintro ⟨j, k, -, hk, -⟩
  exact Nat.lt_irrefl _ (h _ hk)

/-- A second whose counters are in use from zero on has no gap. -/
theorem not_gap_of_counters {held : List BackupEntry} {n : Nat}
    (hbelow : ∀ e ∈ held, e.takenAt = some stamp → e.counter < n)
    (h : ∀ j < n, stamped name stamp j ∈ held) : ¬Gap name stamp held := by
  rintro ⟨j, k, hjk, hk, hj⟩
  exact hj (h j (Nat.lt_trans hjk (hbelow _ hk rfl)))

/--
A backup with the first free counter of the latest second comes behind all others, unless it went
into a gap.
-/
theorem last_iff {held : List BackupEntry} (hs : stamp.IsWritable)
    (hheld : ∀ e ∈ held, e.IsTakenBy name stamp) (hfree : stamped name stamp counter ∉ held)
    (hbefore : ∀ j < counter, stamped name stamp j ∈ held) :
    (∀ e ∈ held, e.rank < (stamped name stamp counter).rank) ↔ ¬Gap name stamp held := by
  constructor
  · rintro hlast ⟨j, k, hjk, hk, hj⟩
    have hrank := hlast _ hk
    rw [rank_stamped, rank_stamped] at hrank
    exact hj (hbefore j (by omega))
  · intro hgap e he
    obtain ⟨stamp', k, rfl, hs', hk, hle⟩ := hheld e he
    rcases Nat.lt_or_eq_of_le hle with hlt | heq
    · exact rank_lt_of_second_lt hk hlt
    · obtain rfl := Stamp.rank_injective hs'.valid hs.valid heq
      have hne : k ≠ counter := by
        rintro rfl
        exact hfree he
      have hnot : ¬counter < k := fun hlt => hgap ⟨counter, k, hlt, he, hfree⟩
      rw [rank_stamped, rank_stamped]
      omega

end BackupEntry

/-! ## Taking a backup -/

/-- A timestamped backup goes into a file with the first free counter, or changes nothing. -/
theorem takeBackup_timestamped {s : Storage} {name : String} (hn : '/' ∉ name.toList)
    (stamp : Stamp) (w : World ω) :
    (∃ counter path data w₁, w.OnlyCalled w₁ ∧ takeBackup s name .timestamped stamp w
          = (.ok (some (stampedName name stamp counter)),
            { w₁ with disk := w.disk.setFile path (stampedName name stamp counter) data }) ∧
        s.locate w.disk (stampedName name stamp counter)
          = .ok (.entry path (stampedName name stamp counter)) ∧
        s.contains w.disk (stampedName name stamp counter) = false ∧
        ∀ j < counter, s.contains w.disk (stampedName name stamp j) = true) ∨
      (∀ file, (takeBackup s name .timestamped stamp w).1 ≠ .ok (some file)) ∧
        w.Alike (takeBackup s name .timestamped stamp w).2 := by
  obtain ⟨counter, htarget, hfree, hbefore⟩ := exists_backupTarget hn s w.disk stamp
  have hend := takeBackup_end s name .timestamped stamp w
  generalize takeBackup s name .timestamped stamp w = r at hend ⊢
  obtain ⟨o, w'⟩ := r
  cases hend with
  | untaken called => exact Or.inr ⟨nofun, called.alike⟩
  | taken called chosen _ place _ =>
    cases htarget.symm.trans chosen
    obtain rfl := Storage.locate_entry (isEntryName_timestamped hn stamp counter) place
    exact Or.inl ⟨counter, _, _, _, called, rfl, place, hfree, hbefore⟩
  | stopped called stop => exact Or.inr ⟨fun file => stop (some file), called.alike⟩

/-! ## Runs -/

/--
A run of backups and prunings of a save-file: the world it has come to, and the backups that were
taken and are left, in the order in which they were taken. Calls may be struck at any time. In a
gapless run no backup is taken while its second has a gap.
-/
inductive BackupRun (s : Storage) (name : String) (gapless : Prop) :
    World ω → List BackupEntry → Prop where
  /-- there is no backup yet -/
  | start {w : World ω} {dir : Path} (base : w.disk.locate s.base = .ok (.folder dir))
    (there : (w.disk.folder? dir).isSome = true)
    (bare : ∀ file, (w.disk.file? dir file).isSome = true → BackupEntry.ofFile? name file = none)
    (clock : w.clock.IsWritable) : BackupRun s name gapless w []
  /-- something else happens, and time goes by: the clock is set on to the moment it shows then -/
  | elsewhere {w w' : World ω} {held : List BackupEntry} (run : BackupRun s name gapless w held)
    (same : s.SameBackups name w.disk w'.disk) (clock : w'.clock.IsWritable)
    (onward : w.clock.rank ≤ w'.clock.rank) : BackupRun s name gapless w' held
  /-- a backup is taken -/
  | backup {w w' : World ω} {held : List BackupEntry} {counter : Nat}
    (run : BackupRun s name gapless w held) (room : held.length < counterLimit)
    (clean : gapless → ¬BackupEntry.Gap name w.clock held)
    (taken : takeBackup s name .timestamped w.clock w
      = (.ok (some (stampedName name w.clock counter)), w')) :
    BackupRun s name gapless w' (held ++ [.stamped name w.clock counter])
  /-- there is nothing to copy, or the copy is struck -/
  | idle {w : World ω} {held : List BackupEntry} (run : BackupRun s name gapless w held)
    (untaken : ∀ file, (takeBackup s name .timestamped w.clock w).1 ≠ .ok (some file)) :
    BackupRun s name gapless (takeBackup s name .timestamped w.clock w).2 held
  /-- old backups are deleted, all that are too many or some of them -/
  | prune {w : World ω} {held : List BackupEntry} (run : BackupRun s name gapless w held)
    (keep : Nat) :
    BackupRun s name gapless (pruneBackups s name keep w).2
      (held.filter fun e => s.contains (pruneBackups s name keep w).2.disk e.file)

namespace BackupRun

variable {s : Storage} {name : String} {gapless : Prop} {w w' : World ω} {held : List BackupEntry}

theorem mono (h : BackupRun s name gapless w held) {gapless' : Prop} (hg : gapless' → gapless) :
    BackupRun s name gapless' w held := by
  induction h with
  | start base there bare clock => exact .start base there bare clock
  | elsewhere _ same clock onward ih => exact .elsewhere ih same clock onward
  | backup _ room clean taken ih => exact .backup ih room (fun h => clean (hg h)) taken
  | idle _ untaken ih => exact .idle ih untaken
  | prune _ keep ih => exact .prune ih keep

/-- What holds of the backups that are left, wherever a run has come to. -/
structure Standing (s : Storage) (name : String) (gapless : Prop) (w : World ω)
    (held : List BackupEntry) : Prop where
  holds : ∃ dir, s.Holds name dir w.disk held
  clock : w.clock.IsWritable
  takenBy : ∀ e ∈ held, e.IsTakenBy name w.clock
  seconds : held.Pairwise fun a b => a.second ≤ b.second
  ascending : gapless → held.Pairwise fun a b => a.rank < b.rank

namespace Standing

/-- The listing has the backups that are left, by rank. -/
theorem timestampedOf (h : Standing s name gapless w held) {dir : Path} {f : Folder}
    (hh : s.Holds name dir w.disk held) (hf : w.disk.folder? dir = some f) :
    (BackupEntry.timestampedOf name f.keys).Perm held ∧
      (gapless → BackupEntry.timestampedOf name f.keys = held) := by
  have hkeys : f.keys.Nodup := f.keys_ascending.imp String.ne_of_lt
  have hmem := hh.mem_iff_mem_keys hf
  exact ⟨BackupEntry.timestampedOf_perm hkeys hh.nodup hmem, fun hg =>
    BackupEntry.timestampedOf_eq hkeys (h.ascending hg) hmem⟩

theorem elsewhere (h : Standing s name gapless w held) (hn : '/' ∉ name.toList)
    (same : s.SameBackups name w.disk w'.disk) (clock : w'.clock.IsWritable)
    (onward : w.clock.rank ≤ w'.clock.rank) : Standing s name gapless w' held where
  holds := by
    obtain ⟨dir, hh⟩ := h.holds
    exact ⟨dir, hh.same hn same⟩
  clock := clock
  takenBy e he := (h.takenBy e he).mono onward
  seconds := h.seconds
  ascending := h.ascending

/-- The backup that is taken is a new one, and its counter can be read. -/
theorem backup (h : Standing s name gapless w held) (hn : '/' ∉ name.toList) {counter : Nat}
    (room : held.length < counterLimit) (clean : gapless → ¬BackupEntry.Gap name w.clock held)
    (taken : takeBackup s name .timestamped w.clock w
      = (.ok (some (stampedName name w.clock counter)), w')) :
    Standing s name gapless w' (held ++ [.stamped name w.clock counter]) := by
  obtain ⟨dir, hh⟩ := h.holds
  rcases takeBackup_timestamped (s := s) hn w.clock w with
    ⟨k, path, data, w₁, hcalled, heq, hl, hfree, hbefore⟩ | ⟨hno, -⟩
  · have hclock : w₁.clock = w.clock := hcalled.alike.clock
    rw [taken] at heq
    have hname : stampedName name w.clock counter = stampedName name w.clock k := by
      injection heq with heq
      injection heq with heq
      injection heq
    obtain rfl := withCounter_injective hname
    obtain rfl := (Prod.mk.inj heq).2
    have hread : ∀ j < counterLimit, s.contains w.disk (stampedName name w.clock j) = true ↔
        BackupEntry.stamped name w.clock j ∈ held := fun j hj =>
      hh.contains_iff hn (e := .stamped name w.clock j) (BackupEntry.ofFile?_stampedName h.clock hj)
    -- counters that cannot be read are out of reach, since all before them are taken
    have hk : counter < counterLimit := by
      apply Decidable.byContradiction
      intro hlarge
      have hall : ∀ j < counterLimit, BackupEntry.stamped name w.clock j ∈ held := fun j hj =>
        (hread j hj).1 (hbefore j (by omega))
      have hlength := BackupEntry.le_length_of_counters hall
      omega
    have hnew : BackupEntry.stamped name w.clock counter ∉ held := by
      intro hmem
      rw [(hread counter hk).2 hmem] at hfree
      cases hfree
    have hlower : ∀ j < counter, BackupEntry.stamped name w.clock j ∈ held := fun j hj =>
      (hread j (by omega)).1 (hbefore j hj)
    obtain rfl : path = dir := by
      obtain ⟨hhome, -⟩ := Storage.home_of_locate_entry
        (isEntryName_timestamped hn w.clock counter) hl
      rw [Storage.home_of_base hh.base] at hhome
      cases hhome
      rfl
    have hput := hh.put (e := .stamped name w.clock counter)
      (BackupEntry.ofFile?_stampedName h.clock hk) hl hnew data
    refine ⟨⟨path, hput⟩, hclock ▸ h.clock, ?_, ?_, ?_⟩
    · intro e he
      show e.IsTakenBy name w₁.clock
      rw [hclock]
      rcases List.mem_append.1 he with he | he
      · exact h.takenBy e he
      · cases List.mem_singleton.1 he
        exact ⟨w.clock, counter, rfl, h.clock, hk, Nat.le_refl _⟩
    · rw [List.pairwise_append]
      refine ⟨h.seconds, List.pairwise_singleton _ _, ?_⟩
      intro a ha b hb
      cases List.mem_singleton.1 hb
      exact (h.takenBy a ha).second_le
    · intro hg
      rw [List.pairwise_append]
      refine ⟨h.ascending hg, List.pairwise_singleton _ _, ?_⟩
      intro a ha b hb
      cases List.mem_singleton.1 hb
      exact (BackupEntry.last_iff h.clock h.takenBy hnew hlower).2 (clean hg) a ha
  · rw [taken] at hno
    exact absurd rfl (hno _)

theorem idle (h : Standing s name gapless w held) (hn : '/' ∉ name.toList)
    (untaken : ∀ file, (takeBackup s name .timestamped w.clock w).1 ≠ .ok (some file)) :
    Standing s name gapless (takeBackup s name .timestamped w.clock w).2 held := by
  rcases takeBackup_timestamped (s := s) hn w.clock w with
    ⟨k, path, data, w₁, -, heq, -⟩ | ⟨-, halike⟩
  · exact absurd (congrArg Prod.fst heq) (untaken _)
  · have hdisk := halike.disk
    have hclock := halike.clock
    generalize (takeBackup s name .timestamped w.clock w).2 = w₁ at hdisk hclock ⊢
    refine ⟨hdisk ▸ h.holds, hclock ▸ h.clock, hclock ▸ h.takenBy, h.seconds, h.ascending⟩

theorem prune (h : Standing s name gapless w held) (keep : Nat) :
    Standing s name gapless (pruneBackups s name keep w).2
      (held.filter fun e => s.contains (pruneBackups s name keep w).2.disk e.file) := by
  obtain ⟨dir, hh⟩ := h.holds
  obtain ⟨f, hf⟩ := Option.isSome_iff_exists.1 hh.there
  obtain ⟨hperm, -⟩ := h.timestampedOf hh hf
  obtain ⟨n, -, hgone, hkept, -⟩ := pruneBackups_run keep hh.base hf
    fun e he => hh.placed e (hperm.mem_iff.1 he)
  generalize (pruneBackups s name keep w).2 = w₁ at hgone hkept ⊢
  refine ⟨⟨dir, ?_⟩, hkept.clock ▸ h.clock, ?_, h.seconds.filter _, fun hg =>
    (h.ascending hg).filter _⟩
  · rw [hgone]
    exact hh.drop _
  · intro e he
    exact hkept.clock ▸ h.takenBy e (List.mem_filter.1 he).1

end Standing

theorem standing (h : BackupRun s name gapless w held) (hn : '/' ∉ name.toList) :
    Standing s name gapless w held := by
  induction h with
  | start base there bare clock =>
    exact ⟨⟨_, .bare base there bare⟩, clock, nofun, .nil, fun _ => .nil⟩
  | elsewhere _ same clock onward ih => exact ih.elsewhere hn same clock onward
  | backup _ room clean taken ih => exact ih.backup hn room clean taken
  | idle _ untaken ih => exact ih.idle hn untaken
  | prune _ keep ih => exact ih.prune keep

/-! ## What a run shows -/

/-- What the listing shows of a run, and what pruning makes of it. -/
structure Shown (s : Storage) (name : String) (gapless : Prop) (dir : Path) (w : World ω)
    (held entries : List BackupEntry) : Prop where
  base : w.disk.locate s.base = .ok (.folder dir)
  listed : listBackups s name w = (.ok entries, w.called)
  /-- the timestamped backups are those that are left -/
  survivors : (entries.filter BackupEntry.isTimestamped).Perm held
  /-- their seconds are in the order in which the backups were taken -/
  seconds : (entries.filter BackupEntry.isTimestamped).map BackupEntry.takenAt
    = held.map BackupEntry.takenAt
  /-- and in a gapless run so are they -/
  inOrder : gapless → entries.filter BackupEntry.isTimestamped = held
  /-- pruning deletes the first ones and nothing else; in a gapless run those taken first -/
  pruned : ∀ keep, ∃ names w' left,
    pruneBackups s name keep w = (.ok names, w') ∧
    names = ((entries.filter BackupEntry.isTimestamped).take (held.length - keep)).map
      BackupEntry.file ∧
    w'.disk = w.disk.dropFiles dir names ∧ w.SameSetting w' ∧
    BackupRun s name gapless w' left ∧
    left.Perm ((entries.filter BackupEntry.isTimestamped).drop (held.length - keep)) ∧
    (gapless → left = held.drop (held.length - keep))

/-- Rows of backups of the same seconds, each in the order of the seconds, show the same moments. -/
theorem map_takenAt_eq {now : Stamp} {row : List BackupEntry} (hperm : row.Perm held)
    (htaken : ∀ e ∈ held, e.IsTakenBy name now) (hr : row.Pairwise fun a b => a.second ≤ b.second)
    (hh : held.Pairwise fun a b => a.second ≤ b.second) :
    row.map BackupEntry.takenAt = held.map BackupEntry.takenAt := by
  have htaken' : ∀ e ∈ row, e.IsTakenBy name now := fun e he => htaken e (hperm.mem_iff.1 he)
  have hr' : (row.map BackupEntry.takenAt).Pairwise
      fun x y => (x.map Stamp.rank).getD 0 ≤ (y.map Stamp.rank).getD 0 := List.pairwise_map.2 hr
  have hh' : (held.map BackupEntry.takenAt).Pairwise
      fun x y => (x.map Stamp.rank).getD 0 ≤ (y.map Stamp.rank).getD 0 := List.pairwise_map.2 hh
  refine (hperm.map BackupEntry.takenAt).eq_of_pairwise ?_ hr' hh'
  intro x y hx hy hxy hyx
  obtain ⟨a, ha, rfl⟩ := List.mem_map.1 hx
  obtain ⟨b, hb, rfl⟩ := List.mem_map.1 hy
  exact (htaken' a ha).takenAt_eq (htaken b hb) (Nat.le_antisymm hxy hyx)

/-- Pruning deletes the backups that are listed first, and the run goes on with the others. -/
theorem pruned (h : BackupRun s name gapless w held) (hn : '/' ∉ name.toList) (hcalm : s.Calm w)
    {dir : Path} {f : Folder} (hh : s.Holds name dir w.disk held)
    (hf : w.disk.folder? dir = some f) (keep : Nat) :
    ∃ names w' left, pruneBackups s name keep w = (.ok names, w') ∧
      names = ((BackupEntry.timestampedOf name f.keys).take (held.length - keep)).map
        BackupEntry.file ∧
      w'.disk = w.disk.dropFiles dir names ∧ w.SameSetting w' ∧
      BackupRun s name gapless w' left ∧
      left.Perm ((BackupEntry.timestampedOf name f.keys).drop (held.length - keep)) ∧
      (gapless → left = held.drop (held.length - keep)) := by
  obtain ⟨hperm, hgapless⟩ := (h.standing hn).timestampedOf hh hf
  obtain ⟨n, -, hgone, hkept, hend⟩ := pruneBackups_run keep hh.base hf
    fun e he => hh.placed e (hperm.mem_iff.1 he)
  rcases hend with ⟨rfl, hanswer⟩ | ⟨hno, -⟩
  · rw [← hperm.length_eq]
    have hleft := hh.filter_dropFiles hperm
      ((BackupEntry.timestampedOf name f.keys).length - keep)
    rw [← hgone] at hleft
    refine ⟨_, _, _, Prod.ext hanswer rfl, rfl, hgone, hkept, h.prune keep, ?_, ?_⟩
    · rw [← hleft]
      exact hperm.symm.filter _
    · intro hg
      rw [hgapless hg] at hleft
      rw [hgapless hg]
      exact hleft
  · exact absurd hcalm hno

/--
Wherever a run has come to, the listing has the backups that are left, in the order of the seconds
in which they were taken, and in a gapless run in the order in which they were taken. Pruning
deletes those listed first, and the run goes on with the others.
-/
theorem exists_shown (h : BackupRun s name gapless w held) (hn : '/' ∉ name.toList) (hcalm : s.Calm w) :
    ∃ dir entries, Shown s name gapless dir w held entries := by
  have hs := h.standing hn
  obtain ⟨dir, hh⟩ := hs.holds
  obtain ⟨f, hf⟩ := Option.isSome_iff_exists.1 hh.there
  obtain ⟨hperm, hgapless⟩ := hs.timestampedOf hh hf
  have hfilter := BackupEntry.filter_isTimestamped_listOf name f.keys
  refine ⟨dir, BackupEntry.listOf name f.keys, hh.base, ?_, hfilter ▸ hperm, hfilter ▸ ?_,
    hfilter ▸ hgapless, hfilter ▸ h.pruned hn hcalm hh hf⟩
  · rcases listBackups_run hh.base hf with hlist | ⟨hno, -⟩
    · exact hlist
    · exact absurd hcalm hno
  · -- what is behind in the listing is not of an earlier second
    refine map_takenAt_eq hperm hs.takenBy ?_ hs.seconds
    refine (BackupEntry.pairwise_timestampedOf name f.keys).imp_of_mem ?_
    intro a b ha hb hle
    have hcounter := (hs.takenBy b (hperm.mem_iff.1 hb)).counter_lt
    apply Nat.le_of_not_lt
    intro hlt
    exact absurd (BackupEntry.rank_lt_of_second_lt hcounter hlt) (Nat.not_lt.2 hle)

end BackupRun

/-! ## A second with a gap and one without -/

namespace Sample

/-- A second of one minute. -/
def second (n : Nat) : Stamp := ⟨2024, 3, 9, 14, 5, n⟩

/-- A folder with one save file. -/
def unsaved : World Unit where
  vars := ()
  disk := Disk.bare.setFile [] (canonicalName "auto") "x: 1\n".toUTF8
  clock := second 9
  calls := 0
  plan := fun _ _ => none
  log := []
  metrics := Metrics.zero

/-- The world behind a backup. -/
def backedUp (w : World Unit) : World Unit :=
  (takeBackup (.plain "/") "auto" .timestamped w.clock w).2

/-- Two backups of one second. -/
def doubled : World Unit := backedUp (backedUp unsaved)

/-- The first of two backups of one second is gone. -/
def halfPruned : World Unit :=
  { doubled with disk := doubled.disk.dropFiles [] [stampedName "auto" (second 9) 0] }

/-- A second later the save file is replaced. -/
def replaced : World Unit :=
  { halfPruned with
    disk := halfPruned.disk.setFile [] (canonicalName "auto") "x: 2\n".toUTF8
    clock := second 10 }

theorem run_unsaved : BackupRun (.plain "/") "auto" True unsaved [] := by
  have hbase : unsaved.disk.locate "/" = .ok (.folder []) :=
    except_eq_ok_of_toOption (by decide +kernel)
  refine .start hbase (by decide +kernel) ?_ (by decide)
  intro file hfile
  by_cases heq : canonicalName "auto" = file
  · subst heq
    decide +kernel
  · have hbare : unsaved.disk.file? [] file = none := by
      show (Disk.bare.setFile _ _ _).file? _ _ = _
      rw [Disk.file?_setFile_of_ne heq]
      rfl
    rw [hbare] at hfile
    cases hfile

theorem run_backedUp {gapless : Prop} {w : World Unit} {held : List BackupEntry} {stamp : Stamp}
    (counter : Nat) (run : BackupRun (.plain "/") "auto" gapless w held) (now : w.clock = stamp)
    (room : held.length < counterLimit) (clean : gapless → ¬BackupEntry.Gap "auto" stamp held)
    (taken : (takeBackup (.plain "/") "auto" .timestamped stamp w).1
      = .ok (some (stampedName "auto" stamp counter))) :
    BackupRun (.plain "/") "auto" gapless (backedUp w)
      (held ++ [.stamped "auto" stamp counter]) := by
  subst now
  exact run.backup room clean (Prod.ext taken rfl)

theorem run_doubled : BackupRun (.plain "/") "auto" True doubled
    [.stamped "auto" (second 9) 0, .stamped "auto" (second 9) 1] := by
  have hfirst := run_backedUp 0 run_unsaved rfl (by decide)
    (fun _ => BackupEntry.not_gap_of_second_lt nofun) (by decide +kernel)
  refine run_backedUp 1 hfirst (by decide +kernel) (by decide) (fun _ => ?_) (by decide +kernel)
  -- the counter zero is in use, and no other one
  exact BackupEntry.not_gap_of_counters (n := 1) (by decide) (by decide)

/-- Two backups are taken in one second, and the first is pruned. -/
theorem run_halfPruned :
    BackupRun (.plain "/") "auto" True halfPruned [.stamped "auto" (second 9) 1] := by
  have hs := run_doubled.standing (by decide)
  obtain ⟨dir, hh⟩ := hs.holds
  obtain ⟨f, hf⟩ := Option.isSome_iff_exists.1 hh.there
  have hbase : doubled.disk.locate "/" = .ok (.folder []) :=
    except_eq_ok_of_toOption (by decide +kernel)
  obtain rfl : dir = [] := by
    have hsame := hh.base.symm.trans hbase
    cases hsame
    rfl
  obtain ⟨names, w', left, -, hnames, hdisk, hsetting, hrun, -, hleft⟩ :=
    run_doubled.pruned (by decide) nofun hh hf 1
  rw [(hs.timestampedOf hh hf).2 trivial] at hnames
  rw [hleft trivial] at hrun
  -- said of any world, so that `doubled` is not run to see it
  have hkeep (w : World Unit) (d : Disk) :
      ({ w with disk := d } : World Unit).clock = w.clock := rfl
  have hclock : halfPruned.clock = w'.clock := (hkeep doubled _).trans hsetting.clock.symm
  have hfirst : names = [stampedName "auto" (second 9) 0] := hnames
  have hsame : halfPruned.disk = w'.disk := by
    rw [hdisk, hfirst]
    rfl
  refine hrun.elsewhere (hsame ▸ .refl _ _ _) ?_ (Nat.le_of_eq (congrArg Stamp.rank hclock.symm))
  decide +kernel

/-- With the next second there is no gap. -/
theorem run_replaced : BackupRun (.plain "/") "auto" True (backedUp replaced)
    [.stamped "auto" (second 9) 1, .stamped "auto" (second 10) 0] := by
  have hother : BackupRun (.plain "/") "auto" True replaced [.stamped "auto" (second 9) 1] :=
    run_halfPruned.elsewhere
      (Storage.sameBackups_setFile (not_isMarked_canonicalName "auto" "auto") _) (by decide)
      (by decide +kernel)
  refine run_backedUp 0 hother rfl (by decide) ?_ (by decide +kernel)
  exact fun _ => BackupEntry.not_gap_of_second_lt (by decide)

end Sample

/-- A backup of the next second is listed behind the one that is left. -/
theorem BackupRun.exists_shown_sample :
    (BackupRun (.plain "/") "auto" True (Sample.backedUp Sample.replaced)
          [.stamped "auto" (Sample.second 9) 1, .stamped "auto" (Sample.second 10) 0] ∧
        '/' ∉ "auto".toList ∧ (Storage.plain "/").Calm (Sample.backedUp Sample.replaced)) ∧
      ∃ dir entries, BackupRun.Shown (.plain "/") "auto" True dir (Sample.backedUp Sample.replaced)
        [.stamped "auto" (Sample.second 9) 1, .stamped "auto" (Sample.second 10) 0] entries := by
  have hslash : '/' ∉ "auto".toList := by decide
  have hcalm : (Storage.plain "/").Calm (Sample.backedUp Sample.replaced) := nofun
  exact ⟨⟨Sample.run_replaced, hslash, hcalm⟩, BackupRun.exists_shown Sample.run_replaced hslash hcalm⟩

/--
A backup that is taken into a gap is listed before the one that was taken before it, and pruning
deletes it although it is the newest.
-/
theorem BackupRun.newest_pruned :
    BackupRun (.plain "/") "auto" False (Sample.backedUp Sample.halfPruned)
        [.stamped "auto" (Sample.second 9) 1, .stamped "auto" (Sample.second 9) 0] ∧
      (listBackups (.plain "/") "auto" (Sample.backedUp Sample.halfPruned)).1.map
          (fun entries => entries.filter BackupEntry.isTimestamped)
        = .ok [.stamped "auto" (Sample.second 9) 0, .stamped "auto" (Sample.second 9) 1] ∧
      (pruneBackups (.plain "/") "auto" 1 (Sample.backedUp Sample.halfPruned)).1
        = .ok [stampedName "auto" (Sample.second 9) 0] := by
  have hhalf : BackupRun (.plain "/") "auto" False Sample.halfPruned
      [.stamped "auto" (Sample.second 9) 1] := Sample.run_halfPruned.mono fun _ => trivial
  have hclock : Sample.halfPruned.clock = Sample.second 9 := by decide +kernel
  have hrun := Sample.run_backedUp 0 hhalf hclock (by decide) False.elim (by decide +kernel)
  obtain ⟨dir, hh⟩ := (hrun.standing (by decide)).holds
  obtain ⟨f, hf⟩ := Option.isSome_iff_exists.1 hh.there
  -- the two backups are listed by their counters
  have hlisted : BackupEntry.timestampedOf "auto" f.keys
      = [.stamped "auto" (Sample.second 9) 0, .stamped "auto" (Sample.second 9) 1] := by
    refine BackupEntry.timestampedOf_eq (f.keys_ascending.imp String.ne_of_lt) (by decide) ?_
    intro e
    rw [← hh.mem_iff_mem_keys hf e]
    exact (List.Perm.swap _ _ []).mem_iff
  have hbase : (Sample.backedUp Sample.halfPruned).disk.locate "/" = .ok (.folder []) :=
    except_eq_ok_of_toOption (by decide +kernel)
  obtain rfl : dir = [] := by
    have hsame := hh.base.symm.trans hbase
    cases hsame
    rfl
  refine ⟨hrun, ?_, ?_⟩
  · rcases listBackups_run hh.base hf with h | ⟨hno, -⟩
    · rw [h]
      exact congrArg Outcome.ok ((BackupEntry.filter_isTimestamped_listOf _ _).trans hlisted)
    · exact absurd nofun hno
  · obtain ⟨names, w', -, h, hnames, -⟩ := hrun.pruned (by decide) nofun hh hf 1
    rw [h, hnames, hlisted]
    rfl

end Keepsake
