import Popularity.Item
import Mathlib.Data.String.Basic
import Mathlib.Tactic.SplitIfs

/-!
# The order of items

Items are listed by kind and then by id, and kinds are compared by code points. Others compare kinds
by the bytes that they are written in. It comes to the same: a character that comes later has a
larger byte where its bytes first differ from those of another, whatever follows.

## Main definitions

* `textBytes`, `Item.Below` — the strict order of items by bytes and id

## Main results

* `textBytes_lt_of_lt` — strings are in the order of their bytes
* `Item.below_of_before` — the order in which items are listed is the order by bytes
* `Item.pairwise_below` — distinct items that are listed go up in that order
-/

namespace Popularity

/-! ### Bytes -/

/-- The bytes that a text is written in. -/
def textBytes (s : String) : List UInt8 := s.toByteArray.data.toList

/-- They are those of its characters, one after another. -/
theorem textBytes_eq (s : String) : textBytes s = s.toList.flatMap String.utf8EncodeChar := by
  have h := String.toByteArray_ofList (l := s.toList)
  rw [String.ofList_toList] at h
  rw [textBytes, h, List.utf8Encode]
  simp

section Digits

variable {a b : Nat} {x y : List UInt8}

theorem cons_lt_cons_of_lt (hb : b < 256) (h : a < b) :
    UInt8.ofNat a :: x < UInt8.ofNat b :: y := by
  refine List.cons_lt_cons_iff.mpr (.inl ?_)
  rw [UInt8.lt_iff_toNat_lt, UInt8.toNat_ofNat', UInt8.toNat_ofNat']
  omega

theorem cons_lt_cons_of_eq (h : a = b) (hxy : x < y) :
    UInt8.ofNat a :: x < UInt8.ofNat b :: y :=
  List.cons_lt_cons_iff.mpr (.inr ⟨congrArg _ h, hxy⟩)

/-- The last digit of two numbers that agree in the others. -/
theorem cons_lt_cons_of_le (hb : b < 256) (hab : a ≤ b) (hxy : a = b → x < y) :
    UInt8.ofNat a :: x < UInt8.ofNat b :: y := by
  rcases Nat.lt_or_eq_of_le hab with h | h
  · exact cons_lt_cons_of_lt hb h
  · exact cons_lt_cons_of_eq h (hxy h)

end Digits

/-- The first byte that tells two characters apart is larger in the later one. -/
theorem utf8EncodeChar_append_lt {c d : Char} (h : c < d) (x y : List UInt8) :
    String.utf8EncodeChar c ++ x < String.utf8EncodeChar d ++ y := by
  have hlt : c.val.toNat < d.val.toNat := UInt32.lt_iff_toNat_lt.mp (Char.lt_def.mp h)
  have hmax : d.val.toNat < 1114112 := by
    rcases d.valid with hd | ⟨-, hd⟩
    · exact Nat.lt_trans hd (by decide)
    · exact hd
  unfold String.utf8EncodeChar
  generalize c.val.toNat = m at hlt
  generalize d.val.toNat = n at hlt hmax
  dsimp only
  -- a character with more bytes has a larger first byte; otherwise the bytes are digits
  split_ifs
  all_goals first
    | omega
    | exact cons_lt_cons_of_lt (by omega) (by omega)
    | skip
  · refine cons_lt_cons_of_le (by omega) (by omega) fun heq => ?_
    exact cons_lt_cons_of_lt (by omega) (by omega)
  · refine cons_lt_cons_of_le (by omega) (by omega) fun heq => ?_
    refine cons_lt_cons_of_le (by omega) (by omega) fun heq' => ?_
    exact cons_lt_cons_of_lt (by omega) (by omega)
  · refine cons_lt_cons_of_le (by omega) (by omega) fun heq => ?_
    refine cons_lt_cons_of_le (by omega) (by omega) fun heq' => ?_
    refine cons_lt_cons_of_le (by omega) (by omega) fun heq'' => ?_
    exact cons_lt_cons_of_lt (by omega) (by omega)

theorem flatMap_utf8EncodeChar_lt {cs ds : List Char} (h : cs < ds) :
    cs.flatMap String.utf8EncodeChar < ds.flatMap String.utf8EncodeChar := by
  induction cs generalizing ds with
  | nil =>
    cases ds with
    | nil => exact absurd h (List.lt_irrefl _)
    | cons d ds =>
      obtain ⟨b, bs, hd⟩ := List.exists_cons_of_ne_nil (l := String.utf8EncodeChar d) (by
        unfold String.utf8EncodeChar
        dsimp only
        split_ifs <;> exact List.cons_ne_nil _ _)
      rw [List.flatMap_cons, hd]
      exact List.nil_lt_cons _ _
  | cons c cs ih =>
    cases ds with
    | nil => exact absurd h (List.not_lt_nil _)
    | cons d ds =>
      rw [List.flatMap_cons, List.flatMap_cons]
      rcases List.cons_lt_cons_iff.mp h with hcd | ⟨rfl, hcs⟩
      · exact utf8EncodeChar_append_lt hcd _ _
      · exact List.append_left_lt (ih hcs)

/-- **Strings are in the order of their bytes.** -/
theorem textBytes_lt_of_lt {s t : String} (h : s < t) : textBytes s < textBytes t := by
  rw [textBytes_eq, textBytes_eq]
  exact flatMap_utf8EncodeChar_lt (String.lt_iff_toList_lt.mp h)

/-! ### Items -/

namespace Item

variable {i j k : Item}

/-- The strict order of items by the bytes of their kinds, and then by id. -/
def Below (i j : Item) : Prop :=
  textBytes i.kind < textBytes j.kind ∨ textBytes i.kind = textBytes j.kind ∧ i.id < j.id

theorem Below.irrefl (i : Item) : ¬ i.Below i := by
  rintro (h | ⟨-, h⟩)
  · exact List.lt_irrefl _ h
  · exact Int64.lt_irrefl h

theorem Below.trans (h : i.Below j) (h' : j.Below k) : i.Below k := by
  rcases h with h | ⟨heq, h⟩
  · rcases h' with h' | ⟨heq', -⟩
    · exact .inl (List.lt_trans h h')
    · exact .inl (heq' ▸ h)
  · rcases h' with h' | ⟨heq', h'⟩
    · exact .inl (heq ▸ h')
    · exact .inr ⟨heq.trans heq', Int64.lt_trans h h'⟩

theorem before_iff : i.before j = true ↔ i.kind < j.kind ∨ i.kind = j.kind ∧ i.id ≤ j.id := by
  simp [before]

theorem before_trans (h : i.before j = true) (h' : j.before k = true) : i.before k = true := by
  rw [before_iff] at *
  rcases h with h | ⟨heq, h⟩
  · rcases h' with h' | ⟨heq', -⟩
    · exact .inl (String.lt_trans h h')
    · exact .inl (heq' ▸ h)
  · rcases h' with h' | ⟨heq', h'⟩
    · exact .inl (heq ▸ h')
    · exact .inr ⟨heq.trans heq', Int64.le_trans h h'⟩

/-- Of two items one is listed before the other; with equal kinds the ids decide. -/
theorem before_or_before_of_le (h : i.kind ≤ j.kind) : i.before j = true ∨ j.before i = true := by
  rw [before_iff, before_iff]
  by_cases hlt : i.kind < j.kind
  · exact .inl (.inl hlt)
  · have heq := String.le_antisymm h (String.not_lt.mp hlt)
    rcases Int64.le_total i.id j.id with hid | hid
    · exact .inl (.inr ⟨heq, hid⟩)
    · exact .inr (.inr ⟨heq.symm, hid⟩)

theorem before_total (i j : Item) : (i.before j || j.before i) = true := by
  rw [Bool.or_eq_true]
  rcases String.le_total i.kind j.kind with h | h
  · exact before_or_before_of_le h
  · exact (before_or_before_of_le h).symm

/-- The order in which items are listed is the order by bytes. -/
theorem below_of_before (h : i.before j = true) (hne : i ≠ j) : i.Below j := by
  rcases before_iff.mp h with h | ⟨heq, h⟩
  · exact .inl (textBytes_lt_of_lt h)
  · refine .inr ⟨congrArg textBytes heq, Int64.lt_of_le_of_ne h fun hid => hne ?_⟩
    cases i
    cases j
    cases heq
    cases hid
    rfl

/-- **Distinct items that are listed in their order go up by bytes and id.** -/
theorem pairwise_below {is : List Item} (h : is.Nodup) :
    (is.mergeSort before).Pairwise Below := by
  have hsorted := List.pairwise_mergeSort (fun i j k => before_trans (i := i) (j := j) (k := k))
    before_total is
  have hnodup := ((List.mergeSort_perm is before).nodup_iff).mpr h
  exact (hsorted.and hnodup).imp fun hij => below_of_before hij.1 hij.2

end Item

end Popularity
