import Keepsake.Proofs.FreeName
/-!
# The names of timestamped backups are read back

The name of a timestamped backup is the mark and its moment and counter behind it, and these are
read back as far as two digits tell the year (`readBackup_stampedName`). Moments are in the order of
their ranks, which are ranks in a mixed radix and so tell the moment.
-/

namespace Keepsake

/-! ## The order of moments -/

namespace Stamp

/-- A number in a mixed radix tells its last digit and what stands before it. -/
theorem eq_of_mul_add_eq {n a b x y : Nat} (hx : x < n) (hy : y < n) (h : a * n + x = b * n + y) :
    a = b ∧ x = y := by
  have hn : 0 < n := Nat.lt_of_le_of_lt (Nat.zero_le x) hx
  have hdiv := congrArg (· / n) h
  have hmod := congrArg (· % n) h
  simp only [Nat.mul_comm _ n, Nat.mul_add_div hn, Nat.div_eq_of_lt hx, Nat.div_eq_of_lt hy,
    Nat.add_zero] at hdiv
  simp only [Nat.mul_add_mod_of_lt hx, Nat.mul_add_mod_of_lt hy] at hmod
  exact ⟨hdiv, hmod⟩

/-- The rank tells the moment. -/
theorem rank_injective {s t : Stamp} (hs : s.isValid = true) (ht : t.isValid = true)
    (h : s.rank = t.rank) : s = t := by
  obtain ⟨hs₁, hs₂, hs₃, hs₄, hs₅⟩ := bounds_of_isValid hs
  obtain ⟨ht₁, ht₂, ht₃, ht₄, ht₅⟩ := bounds_of_isValid ht
  unfold rank at h
  obtain ⟨h, hsecond⟩ := eq_of_mul_add_eq (by omega) (by omega) h
  obtain ⟨h, hminute⟩ := eq_of_mul_add_eq hs₄ ht₄ h
  obtain ⟨h, hhour⟩ := eq_of_mul_add_eq hs₃ ht₃ h
  obtain ⟨h, hday⟩ := eq_of_mul_add_eq (by omega) (by omega) h
  obtain ⟨hyear, hmonth⟩ := eq_of_mul_add_eq (by omega) (by omega) h
  cases s
  cases t
  simp_all

end Stamp

/-! ## Names -/

/-- The name of the timestamped backup of a moment with a counter. -/
def stampedName (name : String) (stamp : Stamp) (counter : Nat) : String :=
  withCounter (timestampedName name stamp) counter

theorem dropFront?_append (front rest : List Char) :
    dropFront? front (front ++ rest) = some rest := by
  induction front with
  | nil => rfl
  | cons c front ih =>
    rw [List.cons_append, dropFront?, if_pos rfl, ih]

theorem toList_stampedName (name : String) (stamp : Stamp) (counter : Nat) :
    (stampedName name stamp counter).toList
      = (canonicalName name ++ "_").toList ++ momentChars stamp counter := by
  unfold stampedName withCounter momentChars
  split <;> simp [timestampedName, Decimal.text, List.append_assoc]

/-- The name of a timestamped backup is read as its moment and counter. -/
theorem readBackup_stampedName (name : String) {stamp : Stamp} {counter : Nat}
    (hs : stamp.IsWritable) (hc : counter < counterLimit) :
    readBackup name (stampedName name stamp counter) = some (stamp, counter) := by
  unfold readBackup
  rw [toList_stampedName, dropFront?_append]
  exact readMoment_momentChars hs hc

/-- So different backups have different names. -/
theorem stampedName_injective {name : String} {stamp stamp' : Stamp} {counter counter' : Nat}
    (hs : stamp.IsWritable) (hs' : stamp'.IsWritable) (hc : counter < counterLimit)
    (hc' : counter' < counterLimit)
    (h : stampedName name stamp counter = stampedName name stamp' counter') :
    stamp = stamp' ∧ counter = counter' := by
  have hread := readBackup_stampedName name hs hc
  rw [h, readBackup_stampedName name hs' hc'] at hread
  cases hread
  exact ⟨rfl, rfl⟩

end Keepsake
