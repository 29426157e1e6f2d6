/-!
# Checked 64-bit arithmetic

Counts and ids are signed 64-bit words. Nothing here ever wraps: a sum that leaves the range is
`none`, and each caller says what that means (a refused statement, a broken cache operation).

## Main definitions

* `Word.bound`, `Word.size64`, `Word.size32` — how many words there are
* `Word.ofInt?` — a number as a word, if it is in range
* `Word.plus?` — the checked sum
-/

namespace Popularity.Word

/-- Two to the 63rd. The words go from its negative up to the number before it. -/
def bound : Int := 9223372036854775808

/-- The number of 64-bit words, two to the 64th. Those without a sign are the numbers below it. -/
def size64 : Nat := 18446744073709551616

/-- The number of 32-bit words, two to the 32nd. Those without a sign are the numbers below it. -/
def size32 : Nat := 4294967296

/-- The word for `n`, if there is one. -/
def ofInt? (n : Int) : Option Int64 :=
  if -bound ≤ n ∧ n < bound then some (Int64.ofInt n) else none

/-- The sum, if it is in range. -/
def plus? (a b : Int64) : Option Int64 := ofInt? (a.toInt + b.toInt)

theorem toInt_of_ofInt?_eq_some {n : Int} {w : Int64} (h : ofInt? n = some w) : w.toInt = n := by
  unfold ofInt? at h
  split at h
  next hn =>
    cases h
    exact Int64.toInt_ofInt_of_le hn.1 hn.2
  next => cases h

@[simp] theorem ofInt?_toInt (w : Int64) : ofInt? w.toInt = some w := by
  unfold ofInt?
  rw [if_pos ⟨w.le_toInt, w.toInt_lt⟩, Int64.ofInt_toInt]

/-- A sum is found exactly when some word equals it. -/
theorem ofInt?_eq_some_iff {n : Int} {w : Int64} : ofInt? n = some w ↔ w.toInt = n :=
  ⟨toInt_of_ofInt?_eq_some, fun h => h ▸ ofInt?_toInt w⟩

theorem plus?_eq_some_iff {a b c : Int64} : plus? a b = some c ↔ c.toInt = a.toInt + b.toInt :=
  ofInt?_eq_some_iff

end Popularity.Word
