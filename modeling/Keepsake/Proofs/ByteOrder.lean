import Keepsake.Codec
/-!
# Characters and their bytes

The bytes of a text are those of its characters. A character has one to four of them, and more
bytes mean a larger first byte, so texts are in the order of their bytes (`bytesOf_lt`). All
bytes but those of ASCII characters are above the ASCII ones, so a line feed among the bytes is a
line feed of the text.
-/

namespace Keepsake

/-! ## Characters -/

theorem div_lt_or_mod_lt {m n : Nat} (h : m < n) (k : Nat) :
    m / k < n / k ∨ m / k = n / k ∧ m % k < n % k := by
  rcases Nat.lt_or_eq_of_le (Nat.div_le_div_right (c := k) (Nat.le_of_lt h)) with hlt | heq
  · exact Or.inl hlt
  · have hm := Nat.div_add_mod m k
    have hn := Nat.div_add_mod n k
    rw [heq] at hm
    exact Or.inr ⟨heq, by omega⟩

/-- Numbers compared by their digits to base 64, the first of four being what is left. -/
theorem sextets_lt {m n : Nat} (h : m < n) :
    m / 262144 < n / 262144 ∨ m / 262144 = n / 262144 ∧
      (m / 4096 % 64 < n / 4096 % 64 ∨ m / 4096 % 64 = n / 4096 % 64 ∧
        (m / 64 % 64 < n / 64 % 64 ∨ m / 64 % 64 = n / 64 % 64 ∧ m % 64 < n % 64)) := by
  rcases div_lt_or_mod_lt h 64 with hfirst | ⟨hfirst, hlast⟩
  · rcases div_lt_or_mod_lt hfirst 64 with hsecond | ⟨hsecond, hlast⟩
    · have hthird := div_lt_or_mod_lt hsecond 64
      omega
    · omega
  · omega

theorem utf8EncodeChar_append_lt {c d : Char} (h : c < d) (s t : List UInt8) :
    String.utf8EncodeChar c ++ s < String.utf8EncodeChar d ++ t := by
  have hlt : c.val.toNat < d.val.toNat := h
  have hd : d.val.toNat < 0x110000 := by
    rcases d.valid with hd | hd <;> omega
  unfold String.utf8EncodeChar
  simp only []
  generalize c.val.toNat = m at *
  generalize d.val.toNat = n at *
  have hdigits := sextets_lt hlt
  -- by the number of bytes of either character
  repeat' split
  all_goals
    simp only [List.cons_append, List.cons_lt_cons_iff, UInt8.lt_iff_toNat_lt,
      ← UInt8.toNat_inj, UInt8.toNat_ofNat']
    simp (disch := omega) only [Nat.mod_eq_of_lt (b := 2 ^ 8), Nat.mod_eq_of_lt (b := 8)]
    omega

theorem newline_mem_utf8EncodeChar_iff {c : Char} :
    0x0A ∈ String.utf8EncodeChar c ↔ c = '\n' := by
  constructor
  · intro h
    unfold String.utf8EncodeChar at h
    simp only [] at h
    refine Char.ext (UInt32.toNat_inj.1 ?_)
    show c.val.toNat = 10
    generalize c.val.toNat = m at *
    repeat' split at h
    all_goals
      simp only [List.mem_cons, List.not_mem_nil, or_false, ← UInt8.toNat_inj, UInt8.toNat_ofNat',
        UInt8.reduceToNat, Nat.reducePow] at h
      omega
  · rintro rfl
    decide

/-! ## Texts -/

namespace Format

theorem toList_bytesOf (cs : List Char) :
    (bytesOf cs).data.toList = cs.flatMap String.utf8EncodeChar := by
  simp [bytesOf, List.utf8Encode]

/-- Texts are in the order of their bytes. -/
theorem bytesOf_lt {a b : List Char} (h : a < b) :
    (bytesOf a).data.toList < (bytesOf b).data.toList := by
  rw [toList_bytesOf, toList_bytesOf]
  induction a generalizing b with
  | nil =>
    cases b with
    | nil => exact absurd h (List.not_lt_nil [])
    | cons d b =>
      obtain ⟨byte, bytes, hd⟩ := List.exists_cons_of_ne_nil (String.utf8EncodeChar_ne_nil (c := d))
      rw [List.flatMap_cons, hd]
      exact List.nil_lt_cons _ _
  | cons c a ih =>
    cases b with
    | nil => exact absurd h (List.not_lt_nil _)
    | cons d b =>
      rw [List.flatMap_cons, List.flatMap_cons]
      rcases List.cons_lt_cons_iff.1 h with hchar | ⟨rfl, hrest⟩
      · exact utf8EncodeChar_append_lt hchar _ _
      · exact List.append_left_lt (ih hrest)

theorem newline_mem_bytesOf_iff {cs : List Char} :
    0x0A ∈ (bytesOf cs).data.toList ↔ '\n' ∈ cs := by
  simp [toList_bytesOf, newline_mem_utf8EncodeChar_iff]

end Format

end Keepsake
