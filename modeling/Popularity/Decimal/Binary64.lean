import Popularity.Decimal.Basic
import Popularity.Word

/-!
# Binary floating point numbers

Numbers with a point are kept in the usual 64-bit binary format: a multiple of a power of two, the
multiplier below 2^53 and the exponent not below -1074. Everything here is computed in whole
numbers: reading rounds a decimal to the nearest such number, a tie going to the even multiplier;
writing gives the fewest digits that read back, without a power of ten.

## Main definitions

* `Binary64`
* `Binary64.ofDecimal` — the nearest one to a decimal
* `Binary64.toCount` — the nearest whole number that fits 64 bits
* `Binary64.text` — the written form
-/

namespace Popularity

/-- A binary floating point number. -/
inductive Binary64 where
  | nan
  | infinite (negative : Bool)
  /-- The number `m * 2 ^ e`, or its negative. -/
  | finite (negative : Bool) (m : Nat) (e : Int)
  deriving DecidableEq, Repr, Inhabited

namespace Binary64

/-! ### Powers and quotients -/

/-- `num / den` times a power of a base, as a quotient. -/
def scaled (base num den : Nat) (e : Int) : Nat × Nat :=
  match e with
  | .ofNat k => (num * base.pow k, den)
  | .negSucc k => (num, den * base.pow (k + 1))

/-- The whole number nearest to a quotient, the even one of two. -/
def nearestEven (num den : Nat) : Nat :=
  let q := num / den
  let r := num % den
  if 2 * r < den then q
  else if den < 2 * r then q + 1
  else q + q % 2

/-- The power of two at or just below a quotient. -/
def log2 (num den : Nat) : Int :=
  let k : Int := (Nat.log2 num : Int) - (Nat.log2 den : Int)
  let (n, d) := scaled 2 num den (-k)
  if n < d then k - 1 else k

/-! ### From decimals -/

/-- The least exponent. -/
def leastExponent : Int := -1074

/-- The greatest exponent. -/
def greatestExponent : Int := 971

/-- Two to the 52nd. Multipliers go up to its double, and those of all but the smallest numbers are
not below it. -/
def leastNormal : Nat := 4503599627370496

/-- The number nearest to a positive quotient. -/
def ofQuotient (negative : Bool) (num den : Nat) : Binary64 :=
  let e := max leastExponent (log2 num den - 52)
  let (n, d) := scaled 2 num den (-e)
  let m := nearestEven n d
  let (m, e) := if m = 2 * leastNormal then (leastNormal, e + 1) else (m, e)
  if greatestExponent < e then .infinite negative else .finite negative m e

/-- The number nearest to `m * 10 ^ e`. Decimals that are out of all proportion are told by the
place of their first digit. -/
def ofDecimal (negative : Bool) (m : Nat) (e : Int) : Binary64 :=
  let first := (Decimal.digits m).length + e
  if m = 0 ∨ first < -400 then .finite negative 0 leastExponent
  else if 400 < first then .infinite negative
  else
    let (n, d) := scaled 10 m 1 e
    ofQuotient negative n d

/-! ### To whole numbers -/

/-- Whether the number is zero, with either sign. -/
def isZero : Binary64 → Bool
  | .finite _ m _ => m = 0
  | _ => false

/-- The nearest whole number, of two the one farther from zero; below zero it is zero, and nothing
exceeds the greatest word. -/
def toCount : Binary64 → Nat
  | .nan | .infinite true => 0
  | .infinite false => Word.size64 - 1
  | .finite true _ _ => 0
  | .finite false m e =>
    let (n, d) := scaled 2 m 1 e
    min ((2 * n + d) / (2 * d)) (Word.size64 - 1)

/-! ### Writing -/

/-- The place of the first digit of a positive quotient: zero for the ones. -/
def firstPlace (num den : Nat) : Int :=
  (Decimal.digits (num * Nat.pow 10 350 / den)).length - 351

/-- Whether `k * 10 ^ p` reads as `m * 2 ^ e`. -/
def readsBack (m : Nat) (e : Int) (k : Nat) (p : Int) : Bool :=
  let (n, d) := scaled 10 k 1 p
  ofQuotient false n d = .finite false m e

/-- Of the two multiples of `10 ^ p` beside a quotient the nearer one that reads as `m * 2 ^ e`. -/
def candidate? (m : Nat) (e : Int) (num den : Nat) (p : Int) : Option Nat :=
  let (n, d) := scaled 10 num den (-p)
  let low := n / d
  let nearer := if 2 * (n % d) < d then [low, low + 1] else [low + 1, low]
  nearer.find? fun k => k ≠ 0 && readsBack m e k p

/-- The shortest digits that read back, with the place of the last one: seventeen are enough. -/
def shortest (m : Nat) (e : Int) : Nat × Int :=
  let (num, den) := scaled 2 m 1 e
  let first := firstPlace num den
  let tries := (List.range 17).findSome? fun (i : Nat) =>
    let p := first - (i : Int)
    (candidate? m e num den p).map fun k => (k, p)
  tries.getD (0, 0)

/-- The number `k * 10 ^ p` without a power of ten. -/
def positional (k : Nat) (p : Int) : List Char :=
  match p with
  | .ofNat p => Decimal.digits k ++ List.replicate p '0'
  | .negSucc p =>
    let places := p + 1
    let ds := Decimal.digits k
    let ds := List.replicate (places + 1 - ds.length) '0' ++ ds
    ds.take (ds.length - places) ++ '.' :: ds.drop (ds.length - places)

/-- Drops zeros at the end of a whole number, as powers of ten. -/
def trimZeros (k : Nat) (p : Int) : Nat × Int :=
  let zeros := ((Decimal.digits k).reverse.takeWhile (· = '0')).length
  (k / Nat.pow 10 zeros, p + zeros)

/-- The written form. -/
def text : Binary64 → String
  | .nan => "NaN"
  | .infinite false => "inf"
  | .infinite true => "-inf"
  | .finite negative m e =>
    let digits :=
      if m = 0 then ['0']
      else
        let (k, p) := shortest m e
        let (k, p) := trimZeros k p
        positional k p
    String.ofList (if negative then '-' :: digits else digits)

end Binary64

end Popularity
