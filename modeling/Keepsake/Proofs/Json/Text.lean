import Keepsake.Json.Text
/-!
# Strings read back from JSON

Each character of a string is one piece of its body: itself, or the UTF-16 unit of a control that
has no letter of its own. No such unit is a surrogate, so the pieces are put together one by one,
and what is read is the string that was written, whatever follows its closing quote.
-/

namespace Keepsake.Json

/-- A control that is written as the number of its unit. -/
def IsNumbered (c : Char) : Prop :=
  c.toNat < 0x20 ∧ c ≠ '\n' ∧ c ≠ '\r' ∧ c ≠ '\t' ∧ c.toNat ≠ 0x08 ∧ c.toNat ≠ 0x0C

instance (c : Char) : Decidable (IsNumbered c) := by
  unfold IsNumbered
  infer_instance

/-- The piece that a written character is read as. -/
def pieceOf (c : Char) : Piece := if IsNumbered c then .unit c.toNat else .char c

namespace Piece

/-! ## Scanning -/

/-- A piece, and what was scanned behind it. -/
def andThen (p : Piece) (r : List Piece × List Char) : List Piece × List Char := (p :: r.1, r.2)

theorem scan_letter {e : Char} {p : Piece} (h : ofLetter? e = some p) (rest : List Char) :
    scan ('\\' :: e :: rest) = (scan rest).map p.andThen := by
  have hu : e ≠ 'u' := by
    rintro rfl
    cases h
  rw [scan.eq_4]
  · rw [h]
    cases scan rest <;> rfl
  · rintro a b c d r heq -
    exact hu heq

theorem scan_unit {a b c d : Char} {n : Nat} (h : hexNumber? [a, b, c, d] = some n)
    (rest : List Char) :
    scan ('\\' :: 'u' :: a :: b :: c :: d :: rest) = (scan rest).map (Piece.unit n).andThen := by
  rw [scan.eq_3, h]
  cases scan rest <;> rfl

theorem scan_char {c : Char} (hq : c ≠ '"') (hb : c ≠ '\\') (hc : ¬c.toNat < 0x20)
    (rest : List Char) : scan (c :: rest) = (scan rest).map (Piece.char c).andThen := by
  rw [scan.eq_5 _ _ hq (fun _ _ _ _ _ h _ => hb h) (fun _ _ h _ => hb h),
    if_neg (by simp [hc, hb])]
  cases scan rest <;> rfl

/-- The four digits of a control give its number. -/
theorem hexNumber?_control : ∀ n < 0x20,
    hexNumber? ['0', '0', hexDigit (n / 16), hexDigit (n % 16)] = some n := by decide

theorem scan_escapeChar (c : Char) (rest : List Char) :
    scan (escapeChar c ++ rest) = (scan rest).map (pieceOf c).andThen := by
  unfold escapeChar
  by_cases hq : c = '"'
  · subst hq
    exact scan_letter rfl rest
  by_cases hb : c = '\\'
  · subst hb
    exact scan_letter rfl rest
  by_cases hn : c = '\n'
  · subst hn
    exact scan_letter rfl rest
  by_cases hr : c = '\r'
  · subst hr
    exact scan_letter rfl rest
  by_cases ht : c = '\t'
  · subst ht
    exact scan_letter rfl rest
  rw [if_neg hq, if_neg hb, if_neg hn, if_neg hr, if_neg ht]
  by_cases h8 : c.toNat = 0x08
  · obtain rfl : c = Char.ofNat 0x08 := by rw [← h8, Char.ofNat_toNat]
    exact scan_letter rfl rest
  by_cases hc : c.toNat = 0x0C
  · obtain rfl : c = Char.ofNat 0x0C := by rw [← hc, Char.ofNat_toNat]
    exact scan_letter rfl rest
  rw [if_neg h8, if_neg hc]
  by_cases hlow : c.toNat < 0x20
  · have hpiece : pieceOf c = .unit c.toNat := if_pos ⟨hlow, hn, hr, ht, h8, hc⟩
    rw [if_pos hlow, hpiece]
    exact scan_unit (hexNumber?_control c.toNat hlow) rest
  · have hpiece : pieceOf c = .char c := if_neg fun h => hlow h.1
    rw [if_neg hlow, hpiece]
    exact scan_char hq hb hlow rest

theorem scan_escape (cs rest : List Char) :
    scan (escape cs ++ '"' :: rest) = some (cs.map pieceOf, rest) := by
  induction cs with
  | nil => rfl
  | cons c cs ih =>
    have hsplit : escape (c :: cs) ++ '"' :: rest
        = escapeChar c ++ (escape cs ++ '"' :: rest) := by
      rw [← List.append_assoc]
      rfl
    rw [hsplit, scan_escapeChar, ih]
    rfl

/-! ## Putting together -/

/-- No unit of a control is a part of a pair. -/
theorem assemble_unit {n : Nat} (hn : n < 0xD800) (ps : List Piece) :
    assemble (.unit n :: ps) = (assemble ps).map (Char.ofNat n :: ·) := by
  cases ps with
  | nil => simp [assemble, Nat.not_le.2 hn]
  | cons p ps =>
    have hlow : ¬0xDC00 ≤ n := by omega
    cases p <;> simp [assemble, Nat.not_le.2 hn, hlow]

theorem assemble_pieceOf (c : Char) (ps : List Piece) :
    assemble (pieceOf c :: ps) = (assemble ps).map (c :: ·) := by
  by_cases h : IsNumbered c
  · rw [pieceOf, if_pos h, assemble_unit (Nat.lt_trans h.1 (by decide)), Char.ofNat_toNat]
  · rw [pieceOf, if_neg h]
    rfl

theorem assemble_map_pieceOf (cs : List Char) : assemble (cs.map pieceOf) = some cs := by
  induction cs with
  | nil => rfl
  | cons c cs ih =>
    rw [List.map_cons, assemble_pieceOf, ih]
    rfl

end Piece

/-- A written string is read back, whatever follows it. -/
theorem readString_escape (cs rest : List Char) :
    readString (escape cs ++ '"' :: rest) = some (cs, rest) := by
  unfold readString
  rw [Piece.scan_escape]
  simp only []
  rw [Piece.assemble_map_pieceOf]
  rfl

end Keepsake.Json
