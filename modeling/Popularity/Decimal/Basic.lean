/-!
# Whole numbers in decimal

Ids, counts and lengths are written in decimal: the digits without leading zeros, after a minus
sign for a negative number. Reading is more generous than writing: a plus sign and leading zeros
are understood.

## Main definitions

* `Decimal.digits`, `Decimal.ofInt` — the written form
* `Decimal.readNat?`, `Decimal.readSigned?` — what is understood
-/

namespace Popularity.Decimal

/-! ### Writing -/

/-- The character for `d`, for `d` below ten. -/
def digit (d : Nat) : Char := Char.ofNat (48 + d)

/-- The digits of `n`, the most significant first. -/
def digits (n : Nat) : List Char :=
  if n < 10 then [digit n] else digits (n / 10) ++ [digit (n % 10)]

/-- A whole number with its sign, which only negative numbers have. -/
def ofInt : Int → List Char
  | .ofNat n => digits n
  | .negSucc n => '-' :: digits (n + 1)

/-- The written form as a string. -/
def text (n : Int) : String := String.ofList (ofInt n)

/-! ### Reading -/

/-- The number that a row of digits stands for; zero for the empty row. -/
def value (cs : List Char) : Nat := cs.foldl (fun n c => 10 * n + (c.toNat - 48)) 0

/-- A nonempty row of ASCII digits. -/
def readNat? (cs : List Char) : Option Nat :=
  if !cs.isEmpty && cs.all Char.isDigit then some (value cs) else none

/-- A nonempty row of ASCII digits after at most one sign. -/
def readSigned? : List Char → Option Int
  | '-' :: cs => (readNat? cs).map fun n => -(n : Int)
  | '+' :: cs => (readNat? cs).map fun n => (n : Int)
  | cs => (readNat? cs).map fun n => (n : Int)

/-- As `readSigned?`, for kinds of number that have no negative members: a minus sign is not
understood, not even before a zero. -/
def readUnsigned? : List Char → Option Nat
  | '+' :: cs => readNat? cs
  | cs => readNat? cs

end Popularity.Decimal
