import Keepsake.Proofs.BackupOrder
/-!
# Spellings of a backup's name

The name of a timestamped backup is written in one way and read in many: a `Spelling` is the mark,
and behind it any spelling of the moment and the counter. The tight one is the name that is written,
and the others are names that no backup is given.

Pruning goes by what is read. It leaves all files alone that are no spelling of a backup
(`pruneBackups_spellings`), but a spelling may well be a name that no backup is ever given.
-/

namespace Keepsake

variable {ω : Type}

/-! ## Names -/

/-- The name of a file is a spelling of a backup: the mark, and `cs` behind it. -/
structure Spelling (name file : String) (stamp : Stamp) (counter : Nat) (cs : List Char) :
    Prop where
  marked : file.toList = (canonicalName name ++ "_").toList ++ cs
  writable : stamp.IsWritable
  bound : counter < counterLimit
  text : MomentText stamp counter cs

/-- What is read as a backup is a spelling of it. -/
theorem readBackup_eq_some_iff {name file : String} {stamp : Stamp} {counter : Nat} :
    readBackup name file = some (stamp, counter) ↔ ∃ cs, Spelling name file stamp counter cs := by
  constructor
  · intro h
    obtain ⟨cs, hdrop, hread⟩ := Option.bind_eq_some_iff.1 h
    obtain ⟨hwritable, hbound, htext⟩ := readMoment_eq_some_iff.1 hread
    exact ⟨cs, eq_append_of_dropFront? hdrop, hwritable, hbound, htext⟩
  · rintro ⟨cs, h⟩
    unfold readBackup
    rw [h.marked, dropFront?_append]
    exact readMoment_eq_some_iff.2 ⟨h.writable, h.bound, h.text⟩

namespace Spelling

variable {name file : String} {stamp : Stamp} {counter : Nat} {cs : List Char}

/-- A spelling that any backup is given is tight. -/
theorem isTight (h : Spelling name file stamp counter cs) {stamp' : Stamp} {counter' : Nat}
    (hfile : file = stampedName name stamp' counter') : IsTight cs := by
  have hmarked := h.marked
  rw [hfile, toList_stampedName] at hmarked
  rw [← List.append_cancel_left hmarked]
  exact isTight_momentChars stamp' counter'

/-- The name of a backup is the tight one of its spellings. -/
theorem eq_stampedName_iff (h : Spelling name file stamp counter cs) :
    file = stampedName name stamp counter ↔ IsTight cs := by
  constructor
  · exact h.isTight
  · intro ht
    rw [← String.toList_inj, toList_stampedName, h.marked, h.text.eq_momentChars ht]

end Spelling

/-! ## Pruning -/

theorem deleteBackups_eq_ok {s : Storage} {row : List BackupEntry} {w w' : World ω}
    {names : List String} (h : deleteBackups s row w = (.ok names, w')) :
    names = row.map BackupEntry.file := by
  induction row generalizing w names with
  | nil =>
    cases h
    rfl
  | cons e rest ih =>
    obtain ⟨_, w₁, -, h⟩ := Act.bind_eq_ok h
    obtain ⟨_, w₂, -, h⟩ := Act.bind_eq_ok h
    obtain ⟨names', w₃, hrest, h⟩ := Act.bind_eq_ok h
    cases h
    rw [ih hrest, List.map_cons]

/-- What reading and pruning the backups of a save-file go by. -/
structure GoesBySpelling (s : Storage) (name : String) (keep : Nat) (w : World ω) : Prop where
  /-- exactly the spellings of backups are read -/
  read : ∀ file stamp counter,
    readBackup name file = some (stamp, counter) ↔ ∃ cs, Spelling name file stamp counter cs
  /-- the name of the backup is the tight one of them, and no other backup has the name of one -/
  given : ∀ file stamp counter cs, Spelling name file stamp counter cs →
    (file = stampedName name stamp counter ↔ IsTight cs) ∧
      ∀ stamp' counter', file = stampedName name stamp' counter' → IsTight cs
  /-- however pruning ends, what is no spelling is still there -/
  spared : s.SameEntries (fun file => ∀ stamp counter cs, ¬Spelling name file stamp counter cs)
    w.disk (pruneBackups s name keep w).2.disk
  /-- what is deleted is a spelling -/
  deleted : ∀ names w', pruneBackups s name keep w = (.ok names, w') → ∀ file ∈ names,
    ∃ stamp counter cs, Spelling name file stamp counter cs

theorem exists_spelling_of_mem {name : String} {files : List String} {e : BackupEntry}
    (he : e ∈ BackupEntry.timestampedOf name files) :
    ∃ stamp counter cs, Spelling name e.file stamp counter cs := by
  obtain ⟨-, he⟩ := BackupEntry.mem_timestampedOf.1 he
  unfold BackupEntry.ofFile? at he
  split at he
  · cases he
  · obtain ⟨⟨stamp, counter⟩, hread, -⟩ := Option.map_eq_some_iff.1 he
    obtain ⟨cs, hcs⟩ := readBackup_eq_some_iff.1 hread
    exact ⟨stamp, counter, cs, hcs⟩

/-- Pruning deletes spellings of backups only, the tight ones and the others. -/
theorem pruneBackups_spellings {name : String} (hn : '/' ∉ name.toList) (s : Storage) (keep : Nat)
    (w : World ω) : GoesBySpelling s name keep w := by
  have hrow : ∀ files, ∀ e ∈ ((BackupEntry.listOf name files).filter BackupEntry.isTimestamped).take
      (((BackupEntry.listOf name files).filter BackupEntry.isTimestamped).length - keep),
      IsEntryName e.file ∧ ∃ stamp counter cs, Spelling name e.file stamp counter cs := by
    intro files e he
    rw [BackupEntry.filter_isTimestamped_listOf] at he
    have hmem := List.mem_of_mem_take he
    obtain ⟨-, hof⟩ := BackupEntry.mem_timestampedOf.1 hmem
    obtain ⟨-, -, hmarked⟩ := BackupEntry.ofFile?_eq_some hof
    exact ⟨hmarked.isEntryName hn, exists_spelling_of_mem hmem⟩
  refine ⟨fun file stamp counter => readBackup_eq_some_iff, ?_, ?_, ?_⟩
  · intro file stamp counter cs h
    exact ⟨h.eq_stampedName_iff, fun stamp' counter' => h.isTight⟩
  · suffices hwithin : Act.Within (.entries s
        (fun file => ∀ stamp counter cs, ¬Spelling name file stamp counter cs))
        (pruneBackups s name keep : Act ω Failure _) from (hwithin w).1
    refine (within_listBackups s name).bind_of_ok fun w entries w' hlist => ?_
    obtain ⟨files, rfl⟩ := listBackups_eq_ok hlist
    refine within_deleteBackups (fun e he => ?_) w'
    obtain ⟨hentry, stamp, counter, cs, hcs⟩ := hrow files e he
    exact ⟨hentry, fun hno => hno stamp counter cs hcs⟩
  · intro names w' h file hfile
    obtain ⟨entries, w₁, hlist, h⟩ := Act.bind_eq_ok h
    obtain ⟨files, rfl⟩ := listBackups_eq_ok hlist
    obtain rfl := deleteBackups_eq_ok h
    obtain ⟨e, he, rfl⟩ := List.mem_map.1 hfile
    exact (hrow files e he).2

namespace Sample

/-- The counter of this file has a zero in front. -/
def padded : String := "auto.softsav_240309-140509.01"

/-- A folder with a save file, and a file that was put there by hand. -/
def handmade : World Unit :=
  { unsaved with disk := unsaved.disk.setFile [] padded "mine".toUTF8 }

theorem spelling_padded : Spelling "auto" padded (second 9) 1 "240309-140509.01".toList := by
  obtain ⟨cs, h⟩ := readBackup_eq_some_iff.1 (by decide +kernel :
    readBackup "auto" padded = some (second 9, 1))
  have hmarked := h.marked
  rw [show padded.toList = (canonicalName "auto" ++ "_").toList ++ "240309-140509.01".toList by
    decide +kernel] at hmarked
  rwa [List.append_cancel_left hmarked]

end Sample

/-- The name of a file that was put there by hand is a spelling. -/
theorem pruneBackups_spellings_sample :
    '/' ∉ "auto".toList ∧ GoesBySpelling (.plain "/") "auto" 0 Sample.handmade :=
  have hn : '/' ∉ "auto".toList := by decide
  ⟨hn, pruneBackups_spellings hn (.plain "/") 0 Sample.handmade⟩

/-- So pruning deletes the file, whose name no backup is ever given. -/
theorem pruneBackups_handmade :
    (pruneBackups (.plain "/") "auto" 0 Sample.handmade).1 = .ok [Sample.padded] ∧
      Sample.handmade.disk.file? [] Sample.padded = some "mine".toUTF8 ∧
      (pruneBackups (.plain "/") "auto" 0 Sample.handmade).2.disk.file? [] Sample.padded = none ∧
      readBackup "auto" Sample.padded = some (Sample.second 9, 1) ∧
      ∀ stamp counter, Sample.padded ≠ stampedName "auto" stamp counter := by
  refine ⟨by decide +kernel, by decide +kernel, by decide +kernel, by decide +kernel, ?_⟩
  intro stamp counter heq
  have htight := Sample.spelling_padded.isTight heq
  exact htight.unpadded (by decide +kernel)

end Keepsake
