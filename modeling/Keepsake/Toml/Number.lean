import Keepsake.Number.Whole
import Keepsake.Toml.Item
import Keepsake.Toml.Text
/-!
# TOML numbers, dates and times

Integers have 64 signed bits and four bases; the other bases take no sign. Underscores may stand
between two digits. A float has a fraction or an exponent, or is an infinity or a NaN; a positive
number beyond the range of floats is refused. Dates and times are checked for their ranges.
-/

namespace Keepsake.Toml

/--
Digits that satisfy `p`, with an underscore between two of them where it is written, and what
follows.
-/
def scanMoreDigits (p : Char → Bool) : List Char → Option (List Char × List Char)
  | '_' :: c :: rest => if p c then (scanMoreDigits p rest).map fun r => (c :: r.1, r.2) else none
  | ['_'] => none
  | c :: rest => if p c then (scanMoreDigits p rest).map fun r => (c :: r.1, r.2) else some ([], c :: rest)
  | [] => some ([], [])

/-- At least one digit that satisfies `p`. -/
def scanDigits (p : Char → Bool) : List Char → Option (List Char × List Char)
  | c :: rest => if p c then (scanMoreDigits p rest).map fun r => (c :: r.1, r.2) else none
  | [] => none

/-- The sign at the front, and what follows. -/
def scanSign : List Char → List Char × List Char
  | '+' :: rest => (['+'], rest)
  | '-' :: rest => (['-'], rest)
  | cs => ([], cs)

/-- The whole part of a decimal number: one zero, or digits that start with another. -/
def scanWhole : List Char → Option (List Char × List Char)
  | '0' :: rest => some (['0'], rest)
  | cs => scanDigits Char.isDigit cs

/-- An exponent, if there is one. -/
def scanExponent : List Char → Option (List Char × List Char)
  | c :: rest =>
    if c = 'e' ∨ c = 'E' then
      let (sign, rest) := scanSign rest
      (scanDigits Char.isDigit rest).map fun r => ('e' :: (sign ++ r.1), r.2)
    else some ([], c :: rest)
  | [] => some ([], [])

/-- The integer, if it has 64 signed bits. -/
def integerItem? (i : Int) : Option Item :=
  if FitsWord i then some (.integer i) else none

/-- The float that a text stands for. -/
def floatItem? (cs : List Char) : Option Item :=
  match Decimal.readBinary cs with
  | some x => if x.isInfinite ∧ !x.negative then none else some (.float x)
  | none => none

/-- Reads an integer in another base, behind its mark. -/
def readBased (base : Nat) (cs : List Char) : Option (Item × List Char) := do
  let isDigit (c : Char) : Bool := (hexValue? c).any fun d => decide (d < base)
  let (ds, rest) ← scanDigits isDigit cs
  let n := ds.foldl (fun n c => base * n + (hexValue? c).getD 0) 0
  let item ← integerItem? n
  some (item, rest)

/-- Reads a decimal integer or a float. -/
def readDecimal (cs : List Char) : Option (Item × List Char) := do
  let (sign, rest) := scanSign cs
  match rest with
  | 'i' :: 'n' :: 'f' :: tail => some (.float (Binary64.infinity (sign = ['-'])), tail)
  | 'n' :: 'a' :: 'n' :: tail => some (.float Binary64.nan, tail)
  | _ => do
    let (whole, rest) ← scanWhole rest
    match rest with
    | '.' :: rest => do
      let (fraction, rest) ← scanDigits Char.isDigit rest
      let (exponent, rest) ← scanExponent rest
      let item ← floatItem? (sign ++ whole ++ '.' :: (fraction ++ exponent))
      some (item, rest)
    | _ => do
      let (exponent, tail) ← scanExponent rest
      if exponent.isEmpty then
        let n : Int := Decimal.ofDigits 0 whole
        let item ← integerItem? (if sign = ['-'] then -n else n)
        some (item, rest)
      else
        let item ← floatItem? (sign ++ whole ++ exponent)
        some (item, tail)

/-! ## Dates and times -/

/-- A number of exactly `count` digits, within bounds. -/
def scanFixed (count low high : Nat) (cs : List Char) : Option (Nat × List Char) :=
  let ds := cs.take count
  if ds.length = count ∧ ds.all Char.isDigit then
    let n := Decimal.ofDigits 0 ds
    if low ≤ n ∧ n ≤ high then some (n, cs.drop count) else none
  else none

/-- Drops a character that has to be there. -/
def expect (c : Char) : List Char → Option (List Char)
  | d :: rest => if d = c then some rest else none
  | [] => none

/-- The days of a month. -/
def daysOf (year month : Nat) : Nat :=
  if month = 2 then if year % 4 = 0 ∧ (year % 100 ≠ 0 ∨ year % 400 = 0) then 29 else 28
  else if month = 4 ∨ month = 6 ∨ month = 9 ∨ month = 11 then 30
  else 31

/-- Reads a date; gives what follows. -/
def scanDate (cs : List Char) : Option (List Char) := do
  let (year, cs) ← scanFixed 4 0 9999 cs
  let (month, cs) ← scanFixed 2 1 12 (← expect '-' cs)
  let (_, cs) ← scanFixed 2 1 (daysOf year month) (← expect '-' cs)
  some cs

/-- Reads a time of day; gives what follows. -/
def scanTime (cs : List Char) : Option (List Char) := do
  let (_, cs) ← scanFixed 2 0 23 cs
  let (_, cs) ← scanFixed 2 0 59 (← expect ':' cs)
  let (_, cs) ← scanFixed 2 0 60 (← expect ':' cs)
  match cs with
  | '.' :: rest => if rest.head?.any Char.isDigit then some (rest.dropWhile Char.isDigit) else none
  | _ => some cs

/-- Skips the offset from universal time, if there is one. -/
def scanOffset (cs : List Char) : Option (List Char) :=
  match cs with
  | 'Z' :: rest => some rest
  | 'z' :: rest => some rest
  | c :: rest =>
    if c = '+' ∨ c = '-' then do
      let (_, rest) ← scanFixed 2 0 23 rest
      let (_, rest) ← scanFixed 2 0 59 (← expect ':' rest)
      some rest
    else some cs
  | [] => some []

/-- Reads a date with or without a time; gives what follows. -/
def scanDateTime (cs : List Char) : Option (List Char) := do
  let rest ← scanDate cs
  match rest with
  | c :: time =>
    if c = 'T' ∨ c = 't' then (scanTime time).bind scanOffset
    else if c = ' ' ∧ (scanFixed 2 0 23 time).any (fun r => r.2.head? = some ':') then
      (scanTime time).bind scanOffset
    else some rest
  | [] => some []

/-- Whether a text starts with `count` digits and then `c`. -/
def startsFixed (count : Nat) (c : Char) (cs : List Char) : Bool :=
  (scanFixed count 0 (Nat.pow 10 count) cs).any fun r => r.2.head? = some c

/-- Reads a number, a date or a time. -/
def readNumber (cs : List Char) : Option (Item × List Char) :=
  if startsFixed 4 '-' cs then (scanDateTime cs).map (Item.moment, ·)
  else if startsFixed 2 ':' cs then (scanTime cs).map (Item.moment, ·)
  else match cs with
    | '0' :: 'x' :: rest => readBased 16 rest
    | '0' :: 'o' :: rest => readBased 8 rest
    | '0' :: 'b' :: rest => readBased 2 rest
    | _ => readDecimal cs

end Keepsake.Toml
