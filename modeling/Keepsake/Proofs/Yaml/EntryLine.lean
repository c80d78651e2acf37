import Keepsake.Proofs.ByteOrder
import Keepsake.Proofs.Yaml.Row
/-!
# A line for each entry

Nothing that is written for a text or a value holds a line feed: numbers are words, a row is its
items with commas between them, and a text whose style takes more than one line is written as a JSON
string, in which line feeds are escaped. So the file of a snapshot, cut at its line feeds, gives
the lines of its entries in the order of the bytes of their keys, and nothing behind the last
line feed (`splitOn_encode_yaml`).
-/

namespace Keepsake

namespace Json

theorem newline_ne_hexDigit : ∀ n < 16, '\n' ≠ hexDigit n := by decide

theorem newline_not_mem_escapeChar (c : Char) : '\n' ∉ escapeChar c := by
  unfold escapeChar
  by_cases hn : c = '\n'
  · subst hn
    decide
  · have hhigh : c.toNat < 0x20 → '\n' ≠ hexDigit (c.toNat / 16) := fun h =>
      newline_ne_hexDigit _ (by omega)
    have hlow := newline_ne_hexDigit (c.toNat % 16) (Nat.mod_lt _ (by decide))
    repeat' split
    all_goals simp_all [eq_comm]

theorem newline_not_mem_stringChars (cs : List Char) : '\n' ∉ stringChars cs := by
  simp [stringChars, escape, newline_not_mem_escapeChar]

end Json

namespace Yaml

/-! ## Scalars and rows -/

/-- A text is written on one line, whatever is in it. -/
theorem newline_not_mem_textChars (cs : List Char) : '\n' ∉ textChars cs := by
  unfold textChars
  simp only []
  split
  · exact Json.newline_not_mem_stringChars cs
  · next h => simpa using h

theorem IsWord.newline_not_mem {u : List Char} (h : IsWord u) : '\n' ∉ u :=
  newline_not_mem_of_any_isBreak
    (List.any_eq_false.2 fun c hc => by simp [isBreak_of_isWordPart (h.parts c hc)])

theorem newline_not_mem_rowChars {items : List (List Char)} (h : ∀ u ∈ items, '\n' ∉ u) :
    '\n' ∉ rowChars items := by
  cases items with
  | nil => decide
  | cons u us =>
    rw [List.forall_mem_cons] at h
    simp only [rowChars, commaSpaced_cons, moreChars, List.mem_cons, List.mem_append,
      List.mem_flatMap, List.not_mem_nil, or_false, not_or, not_exists, not_and]
    exact ⟨by decide, ⟨h.1, fun u hu => ⟨by decide, by decide, h.2 u hu⟩⟩, by decide⟩

theorem newline_not_mem_valueChars (v : Value) : '\n' ∉ valueChars v := by
  cases v with
  | bool b => exact (isWord_word b).newline_not_mem
  | int i => exact (isWord_chars i).newline_not_mem
  | float x => exact (isWord_numberChars x).newline_not_mem
  | text s => exact newline_not_mem_textChars s.toList
  | ints is =>
    exact newline_not_mem_rowChars
      (List.forall_mem_map.2 fun i _ => (isWord_chars i).newline_not_mem)
  | floats xs =>
    exact newline_not_mem_rowChars
      (List.forall_mem_map.2 fun x _ => (isWord_numberChars x).newline_not_mem)

/-! ## Lines -/

/-- The line of an entry, without its line feed. -/
def entryLine (e : String × Value) : List Char :=
  textChars e.1.toList ++ ':' :: ' ' :: valueChars e.2

theorem entryChars_eq (e : String × Value) : entryChars e = entryLine e ++ ['\n'] := by
  simp [entryChars, entryLine]

theorem newline_not_mem_entryLine (e : String × Value) : '\n' ∉ entryLine e := by
  simp [entryLine, newline_not_mem_textChars, newline_not_mem_valueChars]

end Yaml

theorem splitOn_flatMap_concat {α : Type} [BEq α] [LawfulBEq α] {x : α} {lines : List (List α)}
    (h : ∀ l ∈ lines, x ∉ l) : (lines.flatMap (· ++ [x])).splitOn x = lines ++ [[]] := by
  induction lines with
  | nil => rfl
  | cons l lines ih =>
    rw [List.forall_mem_cons] at h
    rw [List.flatMap_cons, List.append_assoc, List.singleton_append,
      List.splitOn_append_cons_self_of_not_mem h.1, ih h.2, List.cons_append]

/-! ## Files -/

/--
What is written as YAML is a line for each entry, by the bytes of the keys, however texts and keys
are made: the key, a colon and a blank, and the value, with no line feed in any of them.
-/
theorem Format.encode_yaml_by_line (s : Snapshot) :
    (∀ cs, '\n' ∉ Yaml.textChars cs) ∧ (∀ v, '\n' ∉ Yaml.valueChars v) ∧
      ∃ data, encode .yaml s = .ok data ∧
        (s.keys.map fun key => key.toUTF8.data.toList).Pairwise (· < ·) ∧
        (s.entries ≠ [] → data.data.toList.splitOn 0x0A =
          (s.entries.map fun e => (bytesOf (Yaml.entryLine e)).data.toList) ++ [[]]) := by
  refine ⟨Yaml.newline_not_mem_textChars, Yaml.newline_not_mem_valueChars, _, rfl, ?_,
    fun hne => ?_⟩
  · rw [NameMap.keys, List.map_map, List.pairwise_map]
    refine s.ascending.imp fun {a b} hlt => ?_
    have hbytes := bytesOf_lt hlt
    simpa [bytesOf] using hbytes
  · have hline : ∀ e, (Yaml.entryChars e).flatMap String.utf8EncodeChar
        = (bytesOf (Yaml.entryLine e)).data.toList ++ [0x0A] := fun e => by
      rw [Yaml.entryChars_eq, List.flatMap_append, toList_bytesOf]
      rfl
    have hlines : (bytesOf (Yaml.snapshotChars s)).data.toList
        = (s.entries.map fun e => (bytesOf (Yaml.entryLine e)).data.toList).flatMap
          (· ++ [0x0A]) := by
      rw [Yaml.snapshotChars, if_neg (by simpa using hne), toList_bytesOf, List.flatMap_assoc,
        List.flatMap_map]
      simp only [hline]
    rw [hlines]
    refine splitOn_flatMap_concat (List.forall_mem_map.2 fun e _ => ?_)
    rw [newline_mem_bytesOf_iff]
    exact Yaml.newline_not_mem_entryLine e

namespace Sample

/-- Keys and texts that look like several lines, like entries or like nothing. -/
def unruly : Snapshot := NameMap.ofList
  [("a: 1\nb: 2", .text "| \n\n"), ("", .text "\n"), ("--- ", .text "é\u2028\r"),
    ("row", .floats [])]

end Sample

theorem Format.encode_yaml_unruly :
    Sample.unruly.entries.map (fun e => String.ofList (Yaml.entryLine e))
      = ["'': |2+", "'--- ': \"é\\L\\r\"", "\"a: 1\\nb: 2\": \"| \\n\\n\"", "row: []"] ∧
      ∃ data, encode .yaml Sample.unruly = .ok data ∧ data.data.toList.splitOn 0x0A =
        (Sample.unruly.entries.map fun e => (bytesOf (Yaml.entryLine e)).data.toList) ++ [[]] := by
  obtain ⟨-, -, data, hencode, -, hlines⟩ := encode_yaml_by_line Sample.unruly
  exact ⟨by decide +kernel, data, hencode, hlines (by decide +kernel)⟩

end Keepsake
