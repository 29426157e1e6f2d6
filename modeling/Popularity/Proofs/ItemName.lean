import Popularity.Item
import Mathlib.Data.List.Basic

/-!
# Items are told apart by their names

Kinds are free text, so a kind may hold colons and digits. A name still belongs to one item only:
the id stands last, and the digits after the last colon are its own.

## Main results

* `Decimal.ofInt_injective`, `Decimal.colon_notMem_ofInt`
* `Item.label_injective`, `Item.cacheKey_injective`
-/

namespace Popularity

namespace Decimal

/-! ### Digits -/

theorem toNat_digit : ∀ {d : Nat}, d < 10 → (digit d).toNat = 48 + d := by decide

theorem value_append (cs : List Char) (c : Char) :
    value (cs ++ [c]) = 10 * value cs + (c.toNat - 48) := by
  simp [value]

theorem value_digits (n : Nat) : value (digits n) = n := by
  induction n using Nat.strongRecOn with
  | ind n ih =>
    rw [digits]
    split
    next h => simp [value, toNat_digit h]
    next h =>
      rw [value_append, ih (n / 10) (by omega), toNat_digit (Nat.mod_lt n (by omega))]
      omega

theorem digits_injective : Function.Injective digits :=
  Function.LeftInverse.injective value_digits

theorem mem_digits {n : Nat} {c : Char} (h : c ∈ digits n) : ∃ d < 10, c = digit d := by
  induction n using Nat.strongRecOn with
  | ind n ih =>
    rw [digits] at h
    split at h
    next hn => exact ⟨n, hn, List.mem_singleton.mp h⟩
    next hn =>
      rcases List.mem_append.mp h with h | h
      · exact ih (n / 10) (by omega) h
      · exact ⟨n % 10, Nat.mod_lt n (by omega), List.mem_singleton.mp h⟩

theorem notMem_digits {n : Nat} {c : Char} (h : ∀ d < 10, digit d ≠ c) : c ∉ digits n := by
  intro hc
  obtain ⟨d, hd, rfl⟩ := mem_digits hc
  exact h d hd rfl

/-! ### Signs -/

/-- A number is written with digits and a minus sign only. -/
theorem notMem_ofInt {c : Char} (hminus : c ≠ '-') (hdigit : ∀ d < 10, digit d ≠ c) (n : Int) :
    c ∉ ofInt n := by
  cases n with
  | ofNat m => exact notMem_digits hdigit
  | negSucc m =>
    rw [ofInt, List.mem_cons, not_or]
    exact ⟨hminus, notMem_digits hdigit⟩

theorem colon_notMem_ofInt (n : Int) : ':' ∉ ofInt n := notMem_ofInt (by decide) (by decide) n

/-- A sign is no digit, so it tells the negative numbers from the others. -/
theorem ofInt_injective : Function.Injective ofInt := by
  have hsign : ∀ m, '-' ∉ digits m := fun m => notMem_digits (by decide)
  intro a b h
  cases a with
  | ofNat m =>
    cases b with
    | ofNat n => rw [digits_injective h]
    | negSucc n =>
      have hm : digits m = '-' :: digits (n + 1) := h
      exact absurd (hm ▸ List.mem_cons_self) (hsign m)
  | negSucc m =>
    cases b with
    | ofNat n =>
      have hn : '-' :: digits (m + 1) = digits n := h
      exact absurd (hn ▸ List.mem_cons_self) (hsign n)
    | negSucc n =>
      have h' : m + 1 = n + 1 := digits_injective (List.cons.inj h).2
      rw [Nat.succ.inj h']

end Decimal

namespace Item

/-! ### Names -/

/-- Two texts that end in a colon and a part without colons are equal part by part. -/
theorem append_colon_inj {a b c d : List Char} (hb : ':' ∉ b) (hd : ':' ∉ d)
    (h : a ++ ':' :: b = c ++ ':' :: d) : a = c ∧ b = d := by
  rcases List.append_eq_append_iff.mp h with ⟨t, rfl, ht⟩ | ⟨t, rfl, ht⟩
  · cases t with
    | nil => exact ⟨(List.append_nil a).symm, (List.cons.inj ht).2⟩
    | cons x t =>
      have hmem : ':' ∈ b := by rw [(List.cons.inj ht).2]; simp
      exact absurd hmem hb
  · cases t with
    | nil => exact ⟨List.append_nil c, (List.cons.inj ht).2.symm⟩
    | cons x t =>
      have hmem : ':' ∈ d := by rw [(List.cons.inj ht).2]; simp
      exact absurd hmem hd

theorem toList_label (i : Item) :
    i.label.toList = i.kind.toList ++ ':' :: Decimal.ofInt i.id.toInt := by
  simp [label, Decimal.text]

theorem label_injective : Function.Injective label := by
  intro i j h
  have hl := congrArg String.toList h
  rw [toList_label, toList_label] at hl
  obtain ⟨hkind, hid⟩ :=
    append_colon_inj (Decimal.colon_notMem_ofInt _) (Decimal.colon_notMem_ofInt _) hl
  cases i; cases j
  rw [mk.injEq]
  exact ⟨String.toList_injective hkind, Int64.toInt_inj.mp (Decimal.ofInt_injective hid)⟩

theorem cacheKey_injective : Function.Injective cacheKey := by
  intro i j h
  have hl := congrArg String.toList h
  simp only [cacheKey, String.toList_append] at hl
  exact label_injective (String.toList_injective (List.append_cancel_left hl))

@[simp] theorem cacheKey_inj {i j : Item} : i.cacheKey = j.cacheKey ↔ i = j :=
  cacheKey_injective.eq_iff

end Item

end Popularity
