import Keepsake.Proofs.NameSpace
import Keepsake.Proofs.Restore
/-!
# What save-files leave of each other

A pass over a save-file puts a backup and the save file, a load puts a backup. All these names are
its own, so under the names of any other save-file the folder has what it had, however the pass or
the load ends. What happens to the variables is for the accessors to say.
-/

namespace Keepsake

variable {ω ε : Type} {s : Storage} {name other : String} {d d' : Disk}

/-! ## Files of another save-file -/

theorem Storage.Puts.sameEntries {file : String} {data : ByteArray} (h : s.Puts d d' file data)
    (hfile : IsLastingName other file) (hne : name ≠ other) :
    s.SameEntries (IsLastingName name) d d' := by
  refine h.entries.mono fun x hx => ?_
  rintro rfl
  exact hne (hx.injective hfile)

theorem BackupEffect.sameEntries (h : BackupEffect s other d d') (hne : name ≠ other) :
    s.SameEntries (IsLastingName name) d d' := by
  cases h with
  | nothing => exact .refl s _ d
  | copied family _ puts => exact puts.sameEntries (.backup family) hne

theorem within_takeBackup_entries (ho : '/' ∉ other.toList) (hne : name ≠ other) (mode : BackupMode)
    (stamp : Stamp) :
    Act.Within (.entries s (IsLastingName name)) (takeBackup s other mode stamp : Act ω _ _) := by
  intro w
  obtain ⟨heffect, hw⟩ := takeBackup_effect (s := s) ho mode stamp w
  exact ⟨heffect.sameEntries hne, hw.toSameSetting⟩

theorem within_write_entries (ho : '/' ∉ other.toList) (hne : name ≠ other) (data : ByteArray) :
    Act.Within (.entries s (IsLastingName name))
      (s.write data (canonicalName other) : Act ω _ _) := by
  intro w
  rcases Storage.write_cases (s := s) (isEntryName_canonicalName ho) data w with
    ⟨w', heq, hw, hputs⟩ | ⟨-, ha⟩
  · rw [heq]
    exact ⟨hputs.sameEntries .canonical hne, hw.toSameSetting⟩
  · exact (Act.Frame.entries s (IsLastingName name)).alike ha

theorem Act.Within.entries {α : Type} {x : Act ω ε α} (h : Act.Within .butVars x) (s : Storage)
    (P : String → Prop) : Act.Within (.entries s P) x :=
  h.mono fun _ _ h => ⟨h.disk ▸ .refl s P _, h.toSameSetting⟩

namespace SaveFile

/-! ## Passes -/

section Pass

variable {F : Act.Frame ω} {f : SaveFile ω}

theorem within_backUpForSave
    (h : ∀ stamp, Act.Within F (takeBackup s f.name f.settings.backupMode stamp)) :
    Act.Within F (f.backUpForSave s : Act ω ε Unit) := by
  refine (Act.within_get _).bind fun clock => (h clock).attempt.bind fun r => ?_
  cases r with
  | ok taken =>
    cases taken with
    | none => exact Act.within_pure _
    | some backup => exact Act.within_tell _ _ _ _
  | error e => exact Act.within_tell _ _ _ _

theorem within_save
    (hbackup : ∀ stamp, Act.Within F (takeBackup s f.name f.settings.backupMode stamp))
    (hwrite : ∀ data, Act.Within F (s.write data (canonicalName f.name))) (format : Format)
    (snapshot : Snapshot) (now : Nat) : Act.Within F (f.save s format snapshot now) :=
  (Act.within_ofExcept _).bind fun data => (within_backUpForSave hbackup).bind fun _ =>
    (hwrite data).bind fun _ => (Act.within_count _).bind fun _ =>
      (Act.within_tell _ _ _ _).bind fun _ => Act.within_pure _

theorem within_countPass (result : PassResult) :
    Act.Within F (countPass result : Act ω ε Unit) := by
  cases result <;> exact Act.within_count _

/-- A pass stays where its accessors, its backup and its writing do. -/
theorem within_pass (hget : ∀ e ∈ f.accessors.entries, Act.Within F (Act.onVars e.2.get))
    (hbackup : ∀ stamp, Act.Within F (takeBackup s f.name f.settings.backupMode stamp))
    (hwrite : ∀ data, Act.Within F (s.write data (canonicalName f.name))) (format : Format)
    (now : Nat) (onlyChanged : Bool) :
    Act.Within F (f.pass s format now onlyChanged : Act ω ε _) := by
  have hattempt : Act.Within F (f.saveIfNeeded s format now onlyChanged) := by
    refine (within_readSnapshot hget).bind fun snapshot => ?_
    split
    · exact Act.within_pure _
    · exact (within_save hbackup hwrite format snapshot now).bind fun _ => Act.within_pure _
  -- whatever was settled, counting the result is all that follows
  have counted : ∀ r : PassResult × SaveFile ω,
      Act.Within F (do countPass r.1; Pure.pure r : Act ω ε _) := fun r =>
    (within_countPass r.1).bind fun _ => Act.within_pure r
  refine hattempt.settle.bind fun outcome => ?_
  cases outcome with
  | ok answer =>
    cases answer with
    | some f' => exact (Act.within_pure (PassResult.saved, f')).bind counted
    | none => exact (Act.within_pure (PassResult.unchanged, f)).bind counted
  | fail e => exact (Act.within_pure (PassResult.failed e, f)).bind counted
  | panic p =>
    exact (Act.within_tell _ _ _ _).bind fun _ =>
      (Act.within_pure (PassResult.failed (.worker ("save pass panicked: " ++ p.message)), f)).bind
        counted

end Pass

/-- However a pass ends, the entries of every other save-file are as they were. -/
theorem within_pass_entries (f : SaveFile ω) (s : Storage) (format : Format) (now : Nat)
    (onlyChanged : Bool) (hn : '/' ∉ f.name.toList) (hne : name ≠ f.name) :
    Act.Within (.entries s (IsLastingName name)) (f.pass s format now onlyChanged : Act ω ε _) :=
  within_pass (fun e _ => (Act.within_onVars e.2.get).entries s _)
    (within_takeBackup_entries hn hne f.settings.backupMode) (within_write_entries hn hne)
    format now onlyChanged

/-- What the accessors of a save-file leave alone when they are read, a pass leaves alone. -/
theorem within_pass_vars {β : Type} {part : ω → β} (f : SaveFile ω) (s : Storage) (format : Format)
    (now : Nat) (onlyChanged : Bool) (hn : '/' ∉ f.name.toList)
    (hget : ∀ e ∈ f.accessors.entries, ∀ vars, part (e.2.get vars).2 = part vars) :
    Act.Within (.vars part) (f.pass s format now onlyChanged : Act ω ε _) := by
  refine within_pass (fun e he w => hget e he w.vars) (fun stamp w => ?_) (fun data w => ?_)
    format now onlyChanged
  · exact congrArg part (takeBackup_effect (s := s) hn f.settings.backupMode stamp w).2.vars
  · rcases Storage.write_cases (s := s) (isEntryName_canonicalName hn) data w with
      ⟨w', heq, hw, -⟩ | ⟨-, ha⟩
    · rw [heq]
      exact congrArg part hw.vars
    · exact congrArg part ha.vars

/-! ## Loads -/

/-- However a load ends, the entries of every other save-file are as they were. -/
theorem within_load_entries (f : SaveFile ω) (s : Storage) (format : Format)
    (hn : '/' ∉ f.name.toList) (hne : name ≠ f.name) :
    Act.Within (.entries s (IsLastingName name)) (f.load s format) :=
  within_load (fun e _ v => (Act.within_onVars (e.2.set v)).entries s _)
    (within_takeBackup_entries hn hne f.settings.backupMode) format

end SaveFile

end Keepsake
