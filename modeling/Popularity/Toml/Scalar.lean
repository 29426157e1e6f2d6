import Popularity.Settings.Tree
import Popularity.Word

/-!
# Plain values in TOML

Numbers, truth values and moments. A value is written as one word without blanks, but for a moment,
in which a blank may stand between the day and the time.

## Main definitions

* `Toml.number?` — whole numbers in four bases, numbers with a point, and the special ones
* `Toml.moment?` — days and times, which become texts
* `Toml.word?` — any plain value
-/

namespace Popularity.Toml

/-! ### Digits -/

/-- Digits of a sort, with single underscores between them; without those. -/
def digits? (isDigit : Char → Bool) : List Char → Option (List Char)
  | [] => none
  | [c] => if isDigit c then some [c] else none
  | c :: '_' :: cs => if isDigit c then (digits? isDigit cs).map (c :: ·) else none
  | c :: cs => if isDigit c then (digits? isDigit cs).map (c :: ·) else none

/-- The value of a digit in a base up to sixteen. -/
def digitValue (c : Char) : Nat :=
  if c.isDigit then c.toNat - 48 else if 'a' ≤ c then c.toNat - 87 else c.toNat - 55

/-- Whether a character is a digit of a base up to sixteen. -/
def isDigitOf (base : Nat) (c : Char) : Bool :=
  (c.isDigit || ('a' ≤ c && c ≤ 'f') || ('A' ≤ c && c ≤ 'F')) && digitValue c < base

/-- A number in a base. -/
def based? (base : Nat) (cs : List Char) : Option Int :=
  (digits? (isDigitOf base) cs).map fun ds =>
    (ds.foldl (fun n c => base * n + digitValue c) 0 : Nat)

/-- The digits of a decimal number that does not start with a zero, unless it is one. -/
def decimal? (cs : List Char) : Option (List Char) :=
  match digits? Char.isDigit cs with
  | some ('0' :: _ :: _) => none
  | ds => ds

/-! ### Numbers -/

/-- A sign, if there is one: whether it is a minus, and the rest. -/
def signed : List Char → Bool × List Char
  | '-' :: cs => (true, cs)
  | '+' :: cs => (false, cs)
  | cs => (false, cs)

/-- A whole number. -/
def whole? : List Char → Option Int
  | '0' :: 'x' :: cs => based? 16 cs
  | '0' :: 'o' :: cs => based? 8 cs
  | '0' :: 'b' :: cs => based? 2 cs
  | cs =>
    let (negative, cs) := signed cs
    (decimal? cs).map fun ds =>
      let n : Int := Decimal.value ds
      if negative then -n else n

/-- The power of ten behind a number, if there is one. -/
def exponent? : List Char → Option Int
  | [] => some 0
  | _ :: cs =>
    let (negative, cs) := signed cs
    (digits? Char.isDigit cs).map fun ds =>
      let n : Int := Decimal.value ds
      if negative then -n else n

/-- A number with a point or a power of ten, or a special one. One that is too large to be kept is
refused. -/
def float? (cs : List Char) : Option Binary64 :=
  let (negative, cs) := signed cs
  if cs = "inf".toList then some (.infinite negative)
  else if cs = "nan".toList then some .nan
  else do
    let (mantissa, power) := cs.span fun c => c ≠ 'e' && c ≠ 'E'
    let (front, point) := mantissa.span (· ≠ '.')
    let front ← decimal? front
    let places ← match point with
      | [] => some []
      | _ :: ds => digits? Char.isDigit ds
    let e ← exponent? power
    match Binary64.ofDecimal negative (Decimal.value (front ++ places)) (e - places.length) with
    | .infinite _ => none
    | x => some x

/-- A number. Whole ones have 64 bits. -/
def number? (cs : List Char) : Option Tree :=
  match whole? cs with
  | some n => (Word.ofInt? n).map fun w => .int w.toInt
  | none => (float? cs).map .float

/-! ### Moments -/

/-- Two digits. -/
def two? : List Char → Option (Nat × List Char)
  | a :: b :: cs => if a.isDigit && b.isDigit then some (Decimal.value [a, b], cs) else none
  | _ => none

/-- The number of days in a month. -/
def daysIn (year month : Nat) : Nat :=
  if month = 2 then
    if year % 4 = 0 ∧ (year % 100 ≠ 0 ∨ year % 400 = 0) then 29 else 28
  else if [4, 6, 9, 11].contains month then 30
  else 31

/-- A day at the front of some characters. -/
def day? (cs : List Char) : Option (List Char × List Char) := do
  let (century, rest) ← two? cs
  let (year, rest) ← two? rest
  match rest with
  | '-' :: rest =>
    let (month, rest) ← two? rest
    match rest with
    | '-' :: rest =>
      let (day, rest) ← two? rest
      if 1 ≤ month ∧ month ≤ 12 ∧ 1 ≤ day ∧ day ≤ daysIn (100 * century + year) month then
        some (cs.take 10, rest)
      else none
    | _ => none
  | _ => none

/-- The fraction of a second at the front of some characters: up to nine digits count, and zeros at
the end do not. -/
def fraction? : List Char → Option (List Char × List Char)
  | '.' :: cs =>
    match cs.span Char.isDigit with
    | ([], _) => none
    | (ds, rest) =>
      let ds := ((ds.take 9).reverse.dropWhile (· = '0')).reverse
      some (if ds.isEmpty then [] else '.' :: ds, rest)
  | cs => some ([], cs)

/-- A time of day at the front of some characters. Seconds may be left out. -/
def time? (cs : List Char) : Option (List Char × List Char) := do
  let (hour, rest) ← two? cs
  match rest with
  | ':' :: rest =>
    let (minute, rest) ← two? rest
    let (second, tail, rest) ← match rest with
      | ':' :: rest => do
        let (second, after) ← two? rest
        let (tail, after) ← fraction? after
        some (second, ':' :: rest.take 2 ++ tail, after)
      | rest => some (0, ":00".toList, rest)
    if hour < 24 ∧ minute < 60 ∧ second ≤ 60 then some (cs.take 5 ++ tail, rest) else none
  | _ => none

/-- The distance from universal time, if there is one, at the end of some characters. -/
def zone? : List Char → Option (List Char)
  | [] => some []
  | ['z'] | ['Z'] => some ['Z']
  | s :: cs =>
    if s = '+' ∨ s = '-' then
      match two? cs with
      | some (hour, ':' :: rest) =>
        match two? rest with
        | some (minute, []) => if hour < 24 ∧ minute < 60 then some (s :: cs) else none
        | _ => none
      | _ => none
    else none

/-- A moment: a day, a time of day, or both, then perhaps with a distance from universal time. -/
def moment? (cs : List Char) : Option Tree :=
  match day? cs with
  | some (day, []) => some (.text (String.ofList day))
  | some (day, c :: rest) =>
    if c = 'T' ∨ c = 't' ∨ c = ' ' then do
      let (time, rest) ← time? rest
      let zone ← zone? rest
      return .text (String.ofList (day ++ 'T' :: time ++ zone))
    else none
  | none =>
    match time? cs with
    | some (time, []) => some (.text (String.ofList time))
    | _ => none

/-! ### Words -/

/-- A plain value that is written as these characters. -/
def word? (cs : List Char) : Option Tree :=
  if cs = "true".toList then some (.bool true)
  else if cs = "false".toList then some (.bool false)
  else match number? cs with
    | some v => some v
    | none => if cs.length ≥ 5 ∧ cs.all (· ≠ '_') then moment? cs else none

end Popularity.Toml
