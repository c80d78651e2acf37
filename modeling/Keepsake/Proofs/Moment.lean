import Keepsake.Backup.Name
import Keepsake.Proofs.Number.Digits
/-!
# How the moment of a backup is spelled

Behind the mark in the name of a timestamped backup stand its moment and, behind a point, perhaps a
counter. They are written in one way and read in many: white space may stand before a field, a field
may have one digit, and a counter may have zeros and a plus sign in front. `MomentText` is the
grammar of what is read (`readMoment_eq_some_iff`). What is written is one of its texts, as far as
two digits tell the year (`Stamp.IsWritable`), and `IsTight` tells it from the others.
-/

namespace Keepsake

/-! ## Fields -/

namespace Stamp

theorem isDigit_digit (n : Nat) : (digit n).isDigit = true := by
  have hdigit : ∀ m < 10, (Char.ofNat (0x30 + m)).isDigit = true := by decide
  exact hdigit (n % 10) (Nat.mod_lt n (by decide))

theorem digitValue_digit (n : Nat) : Decimal.digitValue (digit n) = n % 10 := by
  have hdigit : ∀ m < 10, Decimal.digitValue (Char.ofNat (0x30 + m)) = m := by decide
  exact hdigit (n % 10) (Nat.mod_lt n (by decide))

theorem isWhiteSpace_digit (n : Nat) : isWhiteSpace (digit n) = false := by
  have hdigit : ∀ m < 10, isWhiteSpace (Char.ofNat (0x30 + m)) = false := by decide
  exact hdigit (n % 10) (Nat.mod_lt n (by decide))

theorem digit_digitValue {c : Char} (h : c.isDigit = true) :
    Decimal.digitValue c < 10 ∧ digit (Decimal.digitValue c) = c := by
  have hdigit : ∀ n < 10, digit n = n.digitChar := by decide
  obtain ⟨hlt, hchar⟩ := Decimal.digitValue_spec h
  exact ⟨hlt, (hdigit _ hlt).trans hchar⟩

theorem digit_ne_of_not_isDigit (n : Nat) {c : Char} (h : c.isDigit = false) : digit n ≠ c := by
  rintro rfl
  rw [isDigit_digit] at h
  cases h

/-- Two digits are those of what they stand for. -/
theorem twoDigits_digitValue {a b : Char} (ha : a.isDigit = true) (hb : b.isDigit = true) :
    twoDigits (10 * Decimal.digitValue a + Decimal.digitValue b) = [a, b] := by
  obtain ⟨halt, hadigit⟩ := digit_digitValue ha
  obtain ⟨hblt, hbdigit⟩ := digit_digitValue hb
  have hhigh : (10 * Decimal.digitValue a + Decimal.digitValue b) / 10 = Decimal.digitValue a := by
    omega
  have hlow : (10 * Decimal.digitValue a + Decimal.digitValue b) % 10 = Decimal.digitValue b := by
    omega
  have hmod : ∀ n, digit (n % 10) = digit n := by
    intro n
    simp [digit]
  unfold twoDigits
  rw [hhigh, hadigit, ← hmod, hlow, hbdigit]

theorem twoDigits_mod (n : Nat) : twoDigits (n % 100) = twoDigits n := by
  have hhigh : n % 100 / 10 % 10 = n / 10 % 10 := by omega
  have hlow : n % 100 % 10 = n % 10 := by omega
  unfold twoDigits digit
  rw [hhigh, hlow]

/-- How a field is spelled at the front of a text, with what follows it. -/
inductive FieldText (n : Nat) (rest : List Char) : List Char → Prop where
  | two (blank : List Char) (hblank : ∀ c ∈ blank, isWhiteSpace c = true) (hn : n < 100) :
    FieldText n rest (blank ++ (twoDigits n ++ rest))
  | one (blank : List Char) (hblank : ∀ c ∈ blank, isWhiteSpace c = true) (hn : n < 10)
    (stops : StopsAt Char.isDigit rest) : FieldText n rest (blank ++ digit n :: rest)

theorem readField_blank {blank : List Char} (hblank : ∀ c ∈ blank, isWhiteSpace c = true)
    (cs : List Char) : readField (blank ++ cs) = readField cs := by
  unfold readField
  rw [List.dropWhile_append_of_pos hblank]

/-- Two digits are read as one field, whatever follows. -/
theorem readField_twoDigits {n : Nat} (hn : n < 100) (rest : List Char) :
    readField (twoDigits n ++ rest) = some (n, rest) := by
  have hvalue : 10 * (n / 10 % 10) + n % 10 = n := by omega
  have hdrop : (digit (n / 10) :: digit n :: rest).dropWhile isWhiteSpace
      = digit (n / 10) :: digit n :: rest := by
    rw [List.dropWhile_cons_of_neg (by simp [isWhiteSpace_digit])]
  unfold readField
  simp only [twoDigits, List.cons_append, List.nil_append, hdrop, isDigit_digit, Bool.not_true,
    Bool.false_eq_true, if_false, if_true, digitValue_digit, hvalue]

theorem readField_digit {n : Nat} (hn : n < 10) {rest : List Char}
    (hrest : StopsAt Char.isDigit rest) : readField (digit n :: rest) = some (n, rest) := by
  have hdrop : (digit n :: rest).dropWhile isWhiteSpace = digit n :: rest := by
    rw [List.dropWhile_cons_of_neg (by simp [isWhiteSpace_digit])]
  unfold readField
  simp only [hdrop, isDigit_digit, Bool.not_true, Bool.false_eq_true, if_false, digitValue_digit,
    Nat.mod_eq_of_lt hn]
  cases rest with
  | nil => rfl
  | cons c rest => simp [hrest c rfl]

/-- What is read as a field is a spelling of it. -/
theorem readField_eq_some_iff {n : Nat} {rest cs : List Char} :
    readField cs = some (n, rest) ↔ FieldText n rest cs := by
  constructor
  · intro h
    have hblank : ∀ c ∈ cs.takeWhile isWhiteSpace, isWhiteSpace c = true := by
      intro c hc
      exact List.all_eq_true.1 List.all_takeWhile c hc
    have hone : ∀ a after, a.isDigit = true → StopsAt Char.isDigit after →
        FieldText (Decimal.digitValue a) after (cs.takeWhile isWhiteSpace ++ a :: after) := by
      intro a after ha hstops
      obtain ⟨hlt, hdigit⟩ := digit_digitValue ha
      have htext := FieldText.one _ hblank hlt hstops
      rwa [hdigit] at htext
    rw [← List.takeWhile_append_dropWhile (p := isWhiteSpace) (l := cs)]
    unfold readField at h
    split at h
    · cases h
    · next a after hafter =>
      rw [hafter]
      split at h
      · cases h
      · next hdigit =>
        have ha : a.isDigit = true := by simpa using hdigit
        split at h
        · cases h
          exact hone a [] ha (stopsAt_nil _)
        · next b _ =>
          split at h
          · next hb =>
            obtain ⟨halt, -⟩ := digit_digitValue ha
            obtain ⟨hblt, -⟩ := digit_digitValue hb
            have hlt : 10 * Decimal.digitValue a + Decimal.digitValue b < 100 := by omega
            cases h
            have htext : FieldText _ rest _ := .two _ hblank hlt
            rwa [twoDigits_digitValue ha hb] at htext
          · next hb =>
            cases h
            exact hone a _ ha (stopsAt_cons (by simpa using hb))
  · intro h
    cases h with
    | two blank hblank hn => rw [readField_blank hblank, readField_twoDigits hn]
    | one blank hblank hn stops => rw [readField_blank hblank, readField_digit hn stops]

namespace FieldText

variable {n : Nat} {rest cs : List Char}

theorem lt (h : FieldText n rest cs) : n < 100 := by
  cases h with
  | two _ _ hn => exact hn
  | one _ _ hn _ => omega

theorem ne_nil (h : FieldText n rest cs) : cs ≠ [] := by
  cases h with
  | two blank _ _ => simp [twoDigits]
  | one blank _ _ _ => simp

/-- The rest of a spelling is its end, and in front of it are white space and digits only. -/
theorem exists_append (h : FieldText n rest cs) :
    ∃ front, cs = front ++ rest ∧ ∀ c ∈ front, isWhiteSpace c = true ∨ c.isDigit = true := by
  cases h with
  | two blank hblank hn =>
    refine ⟨blank ++ twoDigits n, by simp, ?_⟩
    intro c hc
    rcases List.mem_append.1 hc with hc | hc
    · exact .inl (hblank c hc)
    · simp only [twoDigits, List.mem_cons, List.not_mem_nil, or_false] at hc
      rcases hc with rfl | rfl <;> exact .inr (isDigit_digit _)
  | one blank hblank hn stops =>
    refine ⟨blank ++ [digit n], by simp, ?_⟩
    intro c hc
    rcases List.mem_append.1 hc with hc | hc
    · exact .inl (hblank c hc)
    · rw [List.mem_singleton.1 hc]
      exact .inr (isDigit_digit n)

theorem forall_mem {P : Char → Prop} (h : FieldText n rest cs)
    (hfield : ∀ c, isWhiteSpace c = true ∨ c.isDigit = true → P c) (hrest : ∀ c ∈ rest, P c) :
    ∀ c ∈ cs, P c := by
  obtain ⟨front, rfl, hfront⟩ := h.exists_append
  rw [List.forall_mem_append]
  exact ⟨fun c hc => hfield c (hfront c hc), hrest⟩

theorem forall_mem_rest {P : Char → Prop} (h : FieldText n rest cs) (hcs : ∀ c ∈ cs, P c) :
    ∀ c ∈ rest, P c := by
  obtain ⟨front, rfl, -⟩ := h.exists_append
  exact (List.forall_mem_append.1 hcs).2

/-- Without white space a field is at most two characters, and two only if it is two digits. -/
theorem tight (h : FieldText n rest cs) (hcs : ∀ c ∈ cs, isWhiteSpace c = false) :
    cs.length ≤ rest.length + 2 ∧ (cs.length = rest.length + 2 → cs = twoDigits n ++ rest) := by
  have hnil : ∀ blank after : List Char, (∀ c ∈ blank, isWhiteSpace c = true) →
      (∀ c ∈ blank ++ after, isWhiteSpace c = false) → blank = [] := by
    intro blank after hblank hnone
    rw [List.eq_nil_iff_forall_not_mem]
    intro c hc
    have hno := hnone c (List.mem_append_left after hc)
    rw [hblank c hc] at hno
    cases hno
  cases h with
  | two blank hblank hn =>
    rw [hnil blank _ hblank hcs]
    simp [twoDigits]
  | one blank hblank hn stops =>
    rw [hnil blank _ hblank hcs]
    simp

end FieldText

/-! ## Moments -/

/-- A second of the calendar whose year two digits tell. -/
structure IsWritable (s : Stamp) : Prop where
  valid : s.isValid = true
  from1970 : 1970 ≤ s.year
  to2069 : s.year ≤ 2069

instance (s : Stamp) : Decidable s.IsWritable :=
  decidable_of_iff (s.isValid = true ∧ 1970 ≤ s.year ∧ s.year ≤ 2069)
    ⟨fun h => ⟨h.1, h.2.1, h.2.2⟩, fun h => ⟨h.valid, h.from1970, h.to2069⟩⟩

theorem daysInMonth_le (year month : Nat) : daysInMonth year month ≤ 31 := by
  unfold daysInMonth
  split
  · split <;> decide
  · split <;> decide

/-- The fields of a second lie in their ranges. -/
theorem bounds_of_isValid {s : Stamp} (h : s.isValid = true) :
    s.month ≤ 12 ∧ s.day ≤ 31 ∧ s.hour < 24 ∧ s.minute < 60 ∧ s.second ≤ 60 := by
  simp only [isValid, Bool.and_eq_true, decide_eq_true_eq] at h
  obtain ⟨⟨⟨⟨⟨⟨-, hmonth⟩, -⟩, hday⟩, hhour⟩, hminute⟩, hsecond⟩ := h
  exact ⟨hmonth, Nat.le_trans hday (daysInMonth_le s.year s.month), hhour, hminute, hsecond⟩

theorem fullYear_mod {year : Nat} (h : 1970 ≤ year) (h' : year ≤ 2069) :
    fullYear (year % 100) = year := by
  unfold fullYear
  split <;> omega

theorem fullYear_spec {n : Nat} (h : n < 100) :
    fullYear n % 100 = n ∧ 1970 ≤ fullYear n ∧ fullYear n ≤ 2069 := by
  unfold fullYear
  split <;> omega

/-- How the compact form of a moment is spelled. -/
inductive CompactText (s : Stamp) : List Char → Prop where
  | mk {year month day hour minute second : List Char}
    (hyear : FieldText (s.year % 100) month year) (hmonth : FieldText s.month day month)
    (hday : FieldText s.day ('-' :: hour) day) (hhour : FieldText s.hour minute hour)
    (hminute : FieldText s.minute second minute) (hsecond : FieldText s.second [] second) :
    CompactText s year

/-- What is read as a moment is a spelling of one that can be written. -/
theorem readCompact_eq_some_iff {s : Stamp} {cs : List Char} :
    readCompact cs = some s ↔ s.IsWritable ∧ CompactText s cs := by
  constructor
  · intro h
    unfold readCompact at h
    obtain ⟨⟨year, cs₁⟩, hyear, h⟩ := Option.bind_eq_some_iff.1 h
    obtain ⟨⟨month, cs₂⟩, hmonth, h⟩ := Option.bind_eq_some_iff.1 h
    obtain ⟨⟨day, cs₃⟩, hday, h⟩ := Option.bind_eq_some_iff.1 h
    simp only [] at h
    split at h
    · next cs₄ =>
      obtain ⟨⟨hour, cs₅⟩, hhour, h⟩ := Option.bind_eq_some_iff.1 h
      obtain ⟨⟨minute, cs₆⟩, hminute, h⟩ := Option.bind_eq_some_iff.1 h
      obtain ⟨⟨second, cs₇⟩, hsecond, h⟩ := Option.bind_eq_some_iff.1 h
      simp only [readField_eq_some_iff] at hyear hmonth hday hhour hminute hsecond
      split at h
      · next hend =>
        obtain ⟨hempty, hvalid⟩ := hend
        obtain ⟨hmod, hlow, hhigh⟩ := fullYear_spec hyear.lt
        simp only [List.isEmpty_iff] at hempty
        subst hempty
        cases h
        refine ⟨⟨hvalid, hlow, hhigh⟩, .mk ?_ hmonth hday hhour hminute hsecond⟩
        rwa [hmod]
      · cases h
    · cases h
  · rintro ⟨hwritable, htext⟩
    cases htext with
    | mk hyear hmonth hday hhour hminute hsecond =>
      simp only [← readField_eq_some_iff] at hyear hmonth hday hhour hminute hsecond
      unfold readCompact
      simp only [hyear, hmonth, hday, hhour, hminute, hsecond, Option.bind_eq_bind,
        Option.bind_some, fullYear_mod hwritable.from1970 hwritable.to2069, List.isEmpty_nil,
        hwritable.valid, and_self, if_true]

/-- What is written of a moment is one of its spellings. -/
theorem compactText_compactChars {s : Stamp} (h : s.IsWritable) : CompactText s s.compactChars := by
  obtain ⟨hmonth, hday, hhour, hminute, hsecond⟩ := bounds_of_isValid h.valid
  have hfield : ∀ n rest, n < 100 → FieldText n rest (twoDigits n ++ rest) :=
    fun _ _ hn => .two [] nofun hn
  have hyear : ∀ rest, FieldText (s.year % 100) rest (twoDigits s.year ++ rest) := by
    intro rest
    rw [← twoDigits_mod s.year]
    exact hfield _ rest (by omega)
  unfold compactChars
  rw [← List.append_nil (twoDigits s.second)]
  simp only [List.append_assoc]
  exact .mk (hyear _) (hfield _ _ (by omega)) (hfield _ _ (by omega)) (hfield _ _ (by omega))
    (hfield _ _ (by omega)) (hfield _ _ (by omega))

theorem length_compactChars (s : Stamp) : s.compactChars.length = 13 := rfl

theorem isWhiteSpace_of_mem_compactChars (s : Stamp) :
    ∀ c ∈ s.compactChars, isWhiteSpace c = false := by
  have hdash : isWhiteSpace '-' = false := by decide
  unfold compactChars twoDigits
  simp [isWhiteSpace_digit, hdash]

theorem ne_point_of_mem_compactChars (s : Stamp) : ∀ c ∈ s.compactChars, c ≠ '.' := by
  have hdigit : ∀ n, digit n ≠ '.' := fun n => digit_ne_of_not_isDigit n (by decide)
  have hdash : '-' ≠ '.' := by decide
  unfold compactChars twoDigits
  simp [hdigit, hdash]

namespace CompactText

variable {s : Stamp} {cs : List Char}

theorem ne_nil (h : CompactText s cs) : cs ≠ [] := by
  cases h with
  | mk hyear _ _ _ _ _ => exact hyear.ne_nil

/-- Besides white space and digits there is only the dash in a spelling. -/
theorem forall_mem {P : Char → Prop} (h : CompactText s cs)
    (hfield : ∀ c, isWhiteSpace c = true ∨ c.isDigit = true → P c) (hdash : P '-') :
    ∀ c ∈ cs, P c := by
  cases h with
  | mk hyear hmonth hday hhour hminute hsecond =>
    have hclock := hhour.forall_mem (P := P) hfield
      (hminute.forall_mem hfield (hsecond.forall_mem hfield nofun))
    have hrest := List.forall_mem_cons.2 ⟨hdash, hclock⟩
    exact hyear.forall_mem hfield (hmonth.forall_mem hfield (hday.forall_mem hfield hrest))

theorem ne_point (h : CompactText s cs) : ∀ c ∈ cs, c ≠ '.' := by
  refine h.forall_mem ?_ (by decide)
  rintro _ hc rfl
  exact absurd hc (by decide)

/-- Thirteen characters and no white space are enough for one spelling of a moment only. -/
theorem eq_compactChars (h : CompactText s cs) (hcs : ∀ c ∈ cs, isWhiteSpace c = false)
    (hlength : cs.length = 13) : cs = s.compactChars := by
  cases h with
  | mk hyear hmonth hday hhour hminute hsecond =>
    have hcs₁ := hyear.forall_mem_rest hcs
    have hcs₂ := hmonth.forall_mem_rest hcs₁
    have hcs₃ := (List.forall_mem_cons.1 (hday.forall_mem_rest hcs₂)).2
    have hcs₄ := hhour.forall_mem_rest hcs₃
    have hcs₅ := hminute.forall_mem_rest hcs₄
    obtain ⟨hle₁, heq₁⟩ := hyear.tight hcs
    obtain ⟨hle₂, heq₂⟩ := hmonth.tight hcs₁
    obtain ⟨hle₃, heq₃⟩ := hday.tight hcs₂
    obtain ⟨hle₄, heq₄⟩ := hhour.tight hcs₃
    obtain ⟨hle₅, heq₅⟩ := hminute.tight hcs₄
    obtain ⟨hle₆, heq₆⟩ := hsecond.tight hcs₅
    rw [List.length_cons] at hle₃ heq₃
    rw [List.length_nil] at hle₆ heq₆
    -- six fields of two characters and the dash make thirteen, so none of them is shorter
    rw [heq₁ (by omega), heq₂ (by omega), heq₃ (by omega), heq₄ (by omega), heq₅ (by omega),
      heq₆ (by omega), twoDigits_mod]
    simp [compactChars]

end CompactText

end Stamp

/-! ## Moments with a counter -/

/-- What stands behind the underscore in the name of a timestamped backup. -/
def momentChars (stamp : Stamp) (counter : Nat) : List Char :=
  stamp.compactChars ++ if counter = 0 then [] else '.' :: Decimal.digitChars counter

/-- How the moment and the counter of a backup are spelled. -/
inductive MomentText (stamp : Stamp) : Nat → List Char → Prop where
  | bare {cs : List Char} (moment : stamp.CompactText cs) : MomentText stamp 0 cs
  | counted {cs ds : List Char} {counter : Nat} (moment : stamp.CompactText cs)
    (count : Decimal.CountText counter ds) : MomentText stamp counter (cs ++ '.' :: ds)

/-- A text without a point is not cut. -/
theorem cut_bare {cs : List Char} (h : ∀ c ∈ cs, c ≠ '.') :
    cs.takeWhile (· ≠ '.') = cs ∧ cs.dropWhile (· ≠ '.') = [] := by
  have hcut := takeWhile_append_of_stopsAt (fun c hc => decide_eq_true (h c hc))
    (stopsAt_nil fun c => decide (c ≠ '.'))
  rwa [List.append_nil] at hcut

/-- A text is cut at its first point. -/
theorem cut_counted {cs : List Char} (h : ∀ c ∈ cs, c ≠ '.') (ds : List Char) :
    (cs ++ '.' :: ds).takeWhile (· ≠ '.') = cs ∧
      (cs ++ '.' :: ds).dropWhile (· ≠ '.') = '.' :: ds :=
  takeWhile_append_of_stopsAt (fun c hc => decide_eq_true (h c hc)) (stopsAt_cons (by decide))

/-- What is read behind the mark is a spelling of a moment and a counter. -/
theorem readMoment_eq_some_iff {stamp : Stamp} {counter : Nat} {cs : List Char} :
    readMoment cs = some (stamp, counter) ↔
      stamp.IsWritable ∧ counter < counterLimit ∧ MomentText stamp counter cs := by
  constructor
  · intro h
    unfold readMoment at h
    simp only [] at h
    have hsplit := List.takeWhile_append_dropWhile (p := fun c => decide (c ≠ '.')) (l := cs)
    split at h
    · next point ds hdrop =>
      obtain ⟨n, hn, h⟩ := Option.bind_eq_some_iff.1 h
      obtain ⟨s, hs, h⟩ := Option.bind_eq_some_iff.1 h
      cases h
      obtain ⟨hcounter, hcount⟩ := Decimal.readCount_eq_some_iff.1 hn
      obtain ⟨hwritable, hmoment⟩ := Stamp.readCompact_eq_some_iff.1 hs
      obtain rfl : point = '.' := by
        have hhead := List.head?_dropWhile_not (fun c => decide (c ≠ '.')) cs
        rw [hdrop] at hhead
        simpa using hhead
      refine ⟨hwritable, hcounter, ?_⟩
      rw [← hsplit, hdrop]
      exact .counted hmoment hcount
    · next hdrop =>
      obtain ⟨s, hs, h⟩ := Option.map_eq_some_iff.1 h
      cases h
      obtain ⟨hwritable, hmoment⟩ := Stamp.readCompact_eq_some_iff.1 hs
      refine ⟨hwritable, by decide, ?_⟩
      rw [← hsplit, hdrop, List.append_nil]
      exact .bare hmoment
  · rintro ⟨hwritable, hcounter, htext⟩
    cases htext with
    | bare hmoment =>
      obtain ⟨htake, hdrop⟩ := cut_bare hmoment.ne_point
      have hs := Stamp.readCompact_eq_some_iff.2 ⟨hwritable, hmoment⟩
      unfold readMoment
      simp only [htake, hdrop, hs, Option.map_some]
    | @counted cs ds _ hmoment hcount =>
      obtain ⟨htake, hdrop⟩ := cut_counted hmoment.ne_point ds
      have hn : readCounter ds = some counter :=
        Decimal.readCount_eq_some_iff.2 ⟨hcounter, hcount⟩
      have hs := Stamp.readCompact_eq_some_iff.2 ⟨hwritable, hmoment⟩
      unfold readMoment
      simp only [htake, hdrop, hn, hs, Option.bind_eq_bind, Option.bind_some]

/-- What is written behind the mark is one of the spellings. -/
theorem momentText_momentChars {stamp : Stamp} (hs : stamp.IsWritable) (counter : Nat) :
    MomentText stamp counter (momentChars stamp counter) := by
  have hmoment := Stamp.compactText_compactChars hs
  unfold momentChars
  split
  · next hzero =>
    rw [List.append_nil, hzero]
    exact .bare hmoment
  · exact .counted hmoment (.plain 0)

/-- What is written behind the mark is read as its moment and counter. -/
theorem readMoment_momentChars {stamp : Stamp} {counter : Nat} (hs : stamp.IsWritable)
    (hc : counter < counterLimit) :
    readMoment (momentChars stamp counter) = some (stamp, counter) :=
  readMoment_eq_some_iff.2 ⟨hs, hc, momentText_momentChars hs counter⟩

/-! ## Tight spellings -/

/--
What is written behind the mark, and nothing else that is read: fields of two digits, and a counter
without a zero or a plus sign in front.
-/
structure IsTight (cs : List Char) : Prop where
  length : (cs.takeWhile (· ≠ '.')).length = 13
  unblanked : ∀ c ∈ cs.takeWhile (· ≠ '.'), isWhiteSpace c = false
  unpadded : (cs.dropWhile (· ≠ '.')).tail.head? ≠ some '0'
  unsigned : (cs.dropWhile (· ≠ '.')).tail.head? ≠ some '+'

/-- What is written is tight. -/
theorem isTight_momentChars (stamp : Stamp) (counter : Nat) :
    IsTight (momentChars stamp counter) := by
  have hplain := stamp.ne_point_of_mem_compactChars
  have hlength := stamp.length_compactChars
  have hblank := stamp.isWhiteSpace_of_mem_compactChars
  unfold momentChars
  split
  · obtain ⟨htake, hdrop⟩ := cut_bare hplain
    rw [List.append_nil]
    constructor <;> simp only [htake, hdrop]
    · exact hlength
    · exact hblank
    · simp
    · simp
  · next hcounter =>
    obtain ⟨htake, hdrop⟩ := cut_counted hplain (Decimal.digitChars counter)
    constructor <;> simp only [htake, hdrop, List.tail_cons]
    · exact hlength
    · exact hblank
    · exact Decimal.head?_digitChars_ne_zero hcounter
    · intro hsign
      have hdigit := Decimal.isDigit_of_mem_digitChars (List.mem_of_mem_head? hsign)
      exact absurd hdigit (by decide)

/-- A moment and a counter have only one tight spelling. -/
theorem MomentText.eq_momentChars {stamp : Stamp} {counter : Nat} {cs : List Char}
    (h : MomentText stamp counter cs) (ht : IsTight cs) : cs = momentChars stamp counter := by
  cases h with
  | bare hmoment =>
    obtain ⟨htake, -⟩ := cut_bare hmoment.ne_point
    have hblank := ht.unblanked
    have hlength := ht.length
    rw [htake] at hblank hlength
    rw [hmoment.eq_compactChars hblank hlength]
    simp [momentChars]
  | @counted cs ds _ hmoment hcount =>
    obtain ⟨htake, hdrop⟩ := cut_counted hmoment.ne_point ds
    obtain ⟨hlength, hblank, hzero, hsign⟩ := ht
    rw [htake] at hlength hblank
    rw [hdrop, List.tail_cons] at hzero hsign
    rw [hmoment.eq_compactChars hblank hlength]
    cases hcount with
    | signed zeros => exact absurd rfl hsign
    | plain zeros =>
      cases zeros with
      | succ zeros => exact absurd rfl hzero
      | zero =>
        have hcounter : counter ≠ 0 := by
          rintro rfl
          exact hzero (by decide)
        simp [momentChars, hcounter]

end Keepsake
