import Popularity.Proofs.ItemName
import Popularity.Word
import Mathlib.Data.List.Induction

/-!
# Numbers are read as they are written

Reading is more generous than writing, so only one direction can hold: what is written is read as
the number that it was written for.

## Main definitions

* `Word.IsOutside` — that a number is no word

## Main results

* `Decimal.readSigned?_ofInt`, `Decimal.readUnsigned?_digits`
* `Decimal.head?_digits` — no zero comes first, but for zero itself
* `Word.ofInt?_eq_none_iff`
-/

namespace Popularity

namespace Decimal

theorem isDigit_digit : ∀ {d : Nat}, d < 10 → (digit d).isDigit = true := by decide

theorem isDigit_of_mem_digits {n : Nat} {c : Char} (h : c ∈ digits n) : c.isDigit = true := by
  obtain ⟨d, hd, rfl⟩ := mem_digits h
  exact isDigit_digit hd

theorem digits_ne_nil (n : Nat) : digits n ≠ [] := by
  rw [digits]
  split <;> simp

/-- No number but zero starts with a zero. -/
theorem head?_digits {n : Nat} (hn : n ≠ 0) : (digits n).head? ≠ some '0' := by
  induction n using Nat.strongRecOn with
  | ind n ih =>
    rw [digits]
    split
    next h =>
      have hdigit : ∀ d < 10, d ≠ 0 → (some (digit d)) ≠ some '0' := by decide
      exact hdigit n h hn
    next h =>
      rw [List.head?_append_of_ne_nil _ (digits_ne_nil _)]
      exact ih (n / 10) (by omega) (by omega)

theorem readNat?_digits (n : Nat) : readNat? (digits n) = some n := by
  have hall : (digits n).all Char.isDigit = true :=
    List.all_eq_true.mpr fun c hc => isDigit_of_mem_digits hc
  simp [readNat?, hall, digits_ne_nil, value_digits]

/-- A digit is the one for its value. -/
theorem exists_digit_of_isDigit {c : Char} (h : c.isDigit = true) : ∃ d < 10, c = digit d := by
  simp only [Char.isDigit, Bool.and_eq_true, decide_eq_true_eq] at h
  have hlow : 48 ≤ c.toNat := h.1
  have hhigh : c.toNat ≤ 57 := h.2
  refine ⟨c.toNat - 48, by omega, ?_⟩
  rw [digit, Nat.add_sub_cancel' hlow, Char.ofNat_toNat]

/-- Digits are those of the number that they stand for, if no zero comes first among several. -/
theorem digits_value {ds : List Char} (hne : ds ≠ []) (hds : ∀ d ∈ ds, d.isDigit = true)
    (hhead : ds = ['0'] ∨ ds.head? ≠ some '0') : digits (value ds) = ds := by
  induction ds using List.reverseRecOn with
  | nil => exact absurd rfl hne
  | append_singleton ds d ih =>
    obtain ⟨n, hn, rfl⟩ := exists_digit_of_isDigit (hds d (by simp))
    have hvalue : value (ds ++ [digit n]) = 10 * value ds + n := by
      rw [value_append, toNat_digit hn, Nat.add_sub_cancel_left]
    rw [hvalue, digits]
    by_cases hnil : ds = []
    · subst hnil
      rw [if_pos (by simpa [value] using hn)]
      simp [value]
    · have hzero : ds.head? ≠ some '0' := by
        rcases hhead with hhead | hhead
        · simp [List.append_eq_singleton_iff, hnil] at hhead
        · rwa [List.head?_append_of_ne_nil _ hnil] at hhead
      have ih := ih hnil (fun d hd => hds d (by simp [hd])) (.inr hzero)
      -- What does not start with a zero does not stand for it either.
      have hpos : value ds ≠ 0 := by
        intro h0
        rw [h0, digits] at ih
        exact hzero (ih ▸ rfl)
      rw [if_neg (by omega), Nat.mul_add_div (by omega), Nat.div_eq_of_lt hn, Nat.add_zero, ih,
        Nat.mul_add_mod, Nat.mod_eq_of_lt hn]

/-- What is written of a number without a sign starts with a digit, hence with no sign. -/
theorem exists_digits_eq_cons (n : Nat) : ∃ c cs, digits n = c :: cs ∧ c.isDigit = true := by
  obtain ⟨c, cs, hcs⟩ := List.exists_cons_of_ne_nil (digits_ne_nil n)
  exact ⟨c, cs, hcs, isDigit_of_mem_digits (hcs ▸ List.mem_cons_self)⟩

theorem readUnsigned?_digits (n : Nat) : readUnsigned? (digits n) = some n := by
  obtain ⟨c, cs, hcs, hc⟩ := exists_digits_eq_cons n
  have hplus : c ≠ '+' := by rintro rfl; cases hc
  rw [hcs, readUnsigned?]
  · rw [← hcs, readNat?_digits]
  · rintro rest heq
    exact hplus (List.cons.inj heq).1

theorem readSigned?_digits (n : Nat) : readSigned? (digits n) = some (n : Int) := by
  obtain ⟨c, cs, hcs, hc⟩ := exists_digits_eq_cons n
  have hminus : c ≠ '-' := by rintro rfl; cases hc
  have hplus : c ≠ '+' := by rintro rfl; cases hc
  rw [hcs, readSigned?]
  · rw [← hcs, readNat?_digits]
    rfl
  · rintro rest heq
    exact hminus (List.cons.inj heq).1
  · rintro rest heq
    exact hplus (List.cons.inj heq).1

/-- **A number is read as it is written.** -/
theorem readSigned?_ofInt (n : Int) : readSigned? (ofInt n) = some n := by
  cases n with
  | ofNat n => exact readSigned?_digits n
  | negSucc n =>
    rw [ofInt, readSigned?, readNat?_digits]
    rfl

end Decimal

namespace Word

/-- Whether a number is below the least word or above the greatest. -/
def IsOutside (n : Int) : Prop := n < -bound ∨ bound ≤ n

theorem ofInt?_eq_none_iff {n : Int} : ofInt? n = none ↔ IsOutside n := by
  rw [ofInt?, IsOutside]
  split <;> simp <;> omega

end Word

end Popularity
