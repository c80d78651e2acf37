import Keepsake.Codec
import Keepsake.Proofs.Cells
import Keepsake.Proofs.Json.Document
import Keepsake.Proofs.Json.Float
/-!
# What a JSON file keeps

A file is read as the snapshot that was written exactly if each value is read back for itself. That
is so of booleans, integers, texts and rows of integers. An empty row of floats is read as one of
integers, and a float is read back if what the reader makes of its literal is that float again
(`FloatKept`): so it is wherever the literal is taken without loss, and not everywhere else.
-/

namespace Keepsake

/-- The floats in a value. -/
def Value.floatItems : Value → List Binary64
  | .float x => [x]
  | .floats xs => xs
  | _ => []

theorem Value.isFinite_eq_all (v : Value) : v.isFinite = v.floatItems.all Binary64.isFinite := by
  cases v <;> simp [isFinite, floatItems]

namespace Json

/-! ## Values that are kept -/

/-- A float that is read back from its literal. -/
def FloatKept (x : Binary64) : Prop := Number.read (floatChars x) = some (.float x)

instance (x : Binary64) : Decidable (FloatKept x) :=
  inferInstanceAs (Decidable (Number.read (floatChars x) = some (.float x)))

/-- A value whose floats are all read back; an empty row of floats is none. -/
def ValueKept (v : Value) : Prop := v ≠ .floats [] ∧ ∀ x ∈ v.floatItems, FloatKept x

instance (v : Value) : Decidable (ValueKept v) :=
  inferInstanceAs (Decidable (v ≠ .floats [] ∧ ∀ x ∈ v.floatItems, FloatKept x))

theorem exists_float_of_read {x : Binary64} (hx : x.isFinite = true) {n : Keepsake.Number}
    (h : Number.read (floatChars x) = some n) : ∃ y, n = .float y := by
  obtain ⟨significand, shift, hread, -⟩ := read_floatChars hx
  obtain ⟨y, -, rfl⟩ := Option.map_eq_some_iff.1 (hread.symm.trans h)
  exact ⟨_, rfl⟩

theorem reread_eq_self_iff {v : Value} (hv : v.isFinite = true) :
    reread v = some v ↔ ValueKept v := by
  cases v with
  | float x =>
    have hkept : ValueKept (.float x) ↔ FloatKept x := by simp [ValueKept, Value.floatItems]
    rw [hkept, reread, Option.map_eq_some_iff]
    constructor
    · rintro ⟨n, hn, heq⟩
      cases n with
      | whole w => cases heq
      | float y =>
        cases heq
        exact hn
    · exact fun h => ⟨.float x, h, rfl⟩
  | floats xs =>
    have hkept : ValueKept (.floats xs) ↔ xs ≠ [] ∧ ∀ x ∈ xs, FloatKept x := by
      simp [ValueKept, Value.floatItems]
    rw [hkept, reread, Option.map_eq_some_iff]
    constructor
    · rintro ⟨ns, hns, heq⟩
      obtain ⟨hne, hitems⟩ := Value.of_ofNumbers_eq_floats heq
      -- every number that is read of a float is a float
      have hfloats : ns = xs.map .float := by
        rw [← hitems, List.map_map]
        refine (List.map_id' ns).symm.trans (List.map_congr_left fun n hn => ?_)
        obtain ⟨x, hx, hread⟩ := exists_of_mem_mapM hns hn
        obtain ⟨y, rfl⟩ := exists_float_of_read (List.all_eq_true.1 hv x hx) hread
        rfl
      rw [hfloats] at hns
      exact ⟨hne, mapM_eq_map_iff.1 hns⟩
    · rintro ⟨hne, h⟩
      exact ⟨_, mapM_eq_map h, Value.ofNumbers_floats hne⟩
  | _ => exact iff_of_true rfl (by simp [ValueKept, Value.floatItems])

/-! ## Snapshots -/

/-- Every entry that is read back is under its key. -/
theorem keys_of_reread {l l' : List (String × Value)} (h : l.mapM rereadEntry = some l') :
    l'.map (·.1) = l.map (·.1) := by
  induction l generalizing l' with
  | nil =>
    cases h
    rfl
  | cons e l ih =>
    obtain ⟨e', r, he, hr, rfl⟩ := mapM_cons_eq_some.1 h
    obtain ⟨v, -, rfl⟩ := Option.map_eq_some_iff.1 he
    rw [List.map_cons, List.map_cons, ih hr]

theorem readSnapshot_eq_self_iff {s : Snapshot} (h : ∀ e ∈ s.entries, e.2.isFinite = true) :
    readSnapshot (openSnapshot s) = some s ↔ ∀ e ∈ s.entries, ValueKept e.2 := by
  have hentry : ∀ e ∈ s.entries, rereadEntry e = some e ↔ ValueKept e.2 := by
    intro e he
    rw [← reread_eq_self_iff (h e he), rereadEntry, Option.map_eq_some_iff]
    constructor
    · rintro ⟨v, hv, heq⟩
      obtain rfl : v = e.2 := congrArg Prod.snd heq
      exact hv
    · exact fun hv => ⟨e.2, hv, rfl⟩
  have hall : s.entries.mapM rereadEntry = some s.entries ↔ ∀ e ∈ s.entries, ValueKept e.2 := by
    have hiff := mapM_eq_map_iff (f := rereadEntry) (g := id) (l := s.entries)
    rw [List.map_id] at hiff
    exact hiff.trans (forall₂_congr hentry)
  rw [← hall, readSnapshot_openSnapshot h, Option.map_eq_some_iff]
  constructor
  · rintro ⟨l, hl, hs⟩
    -- what is read ascends as what was written does, so no entry is put over another
    have hascending : l.Pairwise (fun a b => a.1 < b.1) := by
      have hkeys := s.keys_ascending
      rw [NameMap.keys, ← keys_of_reread hl, List.pairwise_map] at hkeys
      exact hkeys
    have hread : NameMap.ofList l = ⟨l, hascending⟩ := NameMap.ofList_entries ⟨l, hascending⟩
    have hentries : s.entries = l := by rw [← hs, hread]
    rw [hl, hentries]
  · exact fun hl => ⟨s.entries, hl, NameMap.ofList_entries s⟩

end Json

namespace Format

variable {s : Snapshot}

theorem encode_of_isFinite (h : ∀ e ∈ s.entries, e.2.isFinite = true) :
    encode .json s = .ok (bytesOf (Json.openSnapshot s)) := by
  have hnone : s.nonFiniteKey? = none := by
    rw [Snapshot.nonFiniteKey?, Option.map_eq_none_iff, List.find?_eq_none]
    exact fun e he => by simp [h e he]
  rw [encode, hnone]

theorem decode_bytesOf_eq_ok_self_iff (h : ∀ e ∈ s.entries, e.2.isFinite = true) :
    decode .json (bytesOf (Json.openSnapshot s)) = .ok s ↔
      ∀ e ∈ s.entries, Json.ValueKept e.2 := by
  rw [← Json.readSnapshot_eq_self_iff h, decode, textOf?_bytesOf, Option.bind_some]
  cases Json.readSnapshot (Json.openSnapshot s) <;> simp

/-! ## Snapshots without floats -/

/-- A snapshot without floats is written, read as it was, and written again as the same bytes. -/
theorem decode_encode_of_no_floats (s : Snapshot)
    (h : ∀ e ∈ s.entries, e.2.kind ≠ .float ∧ e.2.kind ≠ .floats) :
    ∃ data, encode .json s = .ok data ∧ decode .json data = .ok s ∧
      (decode .json data).bind (encode .json) = .ok data := by
  have hitems : ∀ e ∈ s.entries, e.2 ≠ .floats [] ∧ e.2.floatItems = [] := by
    intro e he
    obtain ⟨hfloat, hfloats⟩ := h e he
    cases hv : e.2 with
    | float x => exact absurd (congrArg Value.kind hv) hfloat
    | floats xs => exact absurd (congrArg Value.kind hv) hfloats
    | _ => exact ⟨nofun, rfl⟩
  have hfinite : ∀ e ∈ s.entries, e.2.isFinite = true := by
    intro e he
    rw [Value.isFinite_eq_all, (hitems e he).2]
    rfl
  have hencode := encode_of_isFinite hfinite
  have hdecode : decode .json (bytesOf (Json.openSnapshot s)) = .ok s := by
    refine (decode_bytesOf_eq_ok_self_iff hfinite).2 fun e he => ⟨(hitems e he).1, ?_⟩
    rw [(hitems e he).2]
    exact nofun
  refine ⟨_, hencode, hdecode, ?_⟩
  rw [hdecode]
  exact hencode

end Format

namespace Sample

/-- Values that are no floats, the ends of the integers among them, under keys of any characters. -/
def exactValues : Snapshot := NameMap.ofList
  [("", .bool true),
    ("a\"\\\n", .text "\u0001\t/ \u2028 é😀"),
    ("null", .text ""),
    ("é", .int ⟨-0x8000000000000000, by decide⟩),
    ("😀", .ints [⟨0x7FFFFFFFFFFFFFFF, by decide⟩, ⟨-1, by decide⟩, ⟨0, by decide⟩]),
    ("😀😀", .ints [])]

end Sample

theorem Format.decode_encode_exactValues :
    (∀ e ∈ Sample.exactValues.entries, e.2.kind ≠ .float ∧ e.2.kind ≠ .floats) ∧
      ∃ data, encode .json Sample.exactValues = .ok data ∧
        decode .json data = .ok Sample.exactValues ∧
        (decode .json data).bind (encode .json) = .ok data := by
  have hkinds : ∀ e ∈ Sample.exactValues.entries, e.2.kind ≠ .float ∧ e.2.kind ≠ .floats := by
    decide +kernel
  exact ⟨hkinds, decode_encode_of_no_floats Sample.exactValues hkinds⟩

/-! ## Snapshots with floats -/

/--
A snapshot of finite floats is written, and what was written is read as the same snapshot exactly if
every float is read back from its literal, as one is whose literal is taken without loss.
-/
theorem Format.decode_encode_floats_iff (s : Snapshot)
    (h : ∀ e ∈ s.entries, e.2.isFinite = true) :
    ∃ data, encode .json s = .ok data ∧
      (decode .json data = .ok s ↔ ∀ e ∈ s.entries, Json.ValueKept e.2) ∧
      ((∀ e ∈ s.entries, e.2 ≠ .floats [] ∧
          ∀ x ∈ e.2.floatItems, Json.IsExact (Json.literalOf x).value) →
        decode .json data = .ok s) := by
  refine ⟨_, encode_of_isFinite h, decode_bytesOf_eq_ok_self_iff h, fun hexact => ?_⟩
  refine (decode_bytesOf_eq_ok_self_iff h).2 fun e he => ⟨(hexact e he).1, fun x hx => ?_⟩
  have hfinite := h e he
  rw [Value.isFinite_eq_all, List.all_eq_true] at hfinite
  exact Json.read_floatChars_of_exact (hfinite x hx) ((hexact e he).2 x hx)

namespace Sample

/-- Floats with few digits, and one that takes all of them and is read back all the same. -/
def keptFloats : Snapshot := NameMap.ofList
  [("rates", .floats [Decimal.toBinary false ⟨25, -1⟩, Binary64.zero true]),
    ("tenth", .float (Decimal.toBinary true ⟨1, -1⟩)),
    ("top", .float (Binary64.ofBits 0x7FEFFFFFFFFFFFFF))]

/-- One float under a key. -/
def oneFloat (word : UInt64) : Snapshot := NameMap.ofList [("k", .float (Binary64.ofBits word))]

end Sample

theorem Format.decode_encode_keptFloats :
    (∀ e ∈ Sample.keptFloats.entries, e.2.isFinite = true) ∧
      ∃ data, encode .json Sample.keptFloats = .ok data ∧
        decode .json data = .ok Sample.keptFloats := by
  have hfinite : ∀ e ∈ Sample.keptFloats.entries, e.2.isFinite = true := by decide +kernel
  have hkept : ∀ e ∈ Sample.keptFloats.entries, Json.ValueKept e.2 := by decide +kernel
  obtain ⟨data, hencode, hiff, -⟩ := decode_encode_floats_iff Sample.keptFloats hfinite
  exact ⟨hfinite, data, hencode, hiff.2 hkept⟩

/-- The greatest number of 53 bits is read as its neighbour: it is written with one digit more. -/
theorem Format.decode_encode_drifts :
    (∀ e ∈ (Sample.oneFloat 0x433FFFFFFFFFFFFF).entries, e.2.isFinite = true) ∧
      Sample.oneFloat 0x433FFFFFFFFFFFFE ≠ Sample.oneFloat 0x433FFFFFFFFFFFFF ∧
      ∃ data, encode .json (Sample.oneFloat 0x433FFFFFFFFFFFFF) = .ok data ∧
        decode .json data = .ok (Sample.oneFloat 0x433FFFFFFFFFFFFE) := by
  have hfinite : ∀ e ∈ (Sample.oneFloat 0x433FFFFFFFFFFFFF).entries, e.2.isFinite = true := by
    decide +kernel
  have hread : (Sample.oneFloat 0x433FFFFFFFFFFFFF).entries.mapM Json.rereadEntry
      = some (Sample.oneFloat 0x433FFFFFFFFFFFFE).entries := by
    decide +kernel
  refine ⟨hfinite, by decide +kernel, _, encode_of_isFinite hfinite, ?_⟩
  rw [decode, textOf?_bytesOf, Option.bind_some, Json.readSnapshot_openSnapshot hfinite, hread,
    Option.map_some, NameMap.ofList_entries]

end Keepsake
