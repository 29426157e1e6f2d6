import Mathlib.Data.List.Sort

/-!
# Order by a number

To bring things into the order of a number, and to leave those with the same number in the order in
which they are, is the same in one go or in parts: such an order is known from the things of each
number. The latest of some numbers is known from those that matter, in any order.

## Main definitions

* `inOrder`

## Main results

* `eq_of_filter_eq`, `inOrder_append`, `inOrder_split`
* `foldl_max_filter`, `foldl_max_perm`
-/

namespace Popularity

/-- Things in the order of a number. Those with the same number keep their order. -/
def inOrder {α : Type} (key : α → Nat) (xs : List α) : List α :=
  xs.mergeSort fun a b => key a ≤ key b

section inOrder

variable {α : Type} {key : α → Nat} {xs ys : List α}

theorem inOrder_perm : (inOrder key xs).Perm xs := List.mergeSort_perm _ _

theorem key_le_trans (a b c : α) (hab : decide (key a ≤ key b) = true)
    (hbc : decide (key b ≤ key c) = true) : decide (key a ≤ key c) = true :=
  decide_eq_true ((of_decide_eq_true hab).trans (of_decide_eq_true hbc))

theorem key_le_total (a b : α) : (decide (key a ≤ key b) || decide (key b ≤ key a)) = true := by
  simpa using Nat.le_total _ _

theorem pairwise_inOrder : (inOrder key xs).Pairwise (key · ≤ key ·) :=
  (List.pairwise_mergeSort key_le_trans key_le_total xs).imp of_decide_eq_true

theorem filter_inOrder (n : Nat) :
    (inOrder key xs).filter (key · = n) = xs.filter (key · = n) := by
  have hsub : (xs.filter (key · = n)).Sublist (inOrder key xs) := by
    refine List.sublist_mergeSort key_le_trans key_le_total ?_ List.filter_sublist
    refine List.pairwise_of_forall_mem_list fun a ha b hb => decide_eq_true (Nat.le_of_eq ?_)
    have ha := of_decide_eq_true (List.mem_filter.mp ha).2
    have hb := of_decide_eq_true (List.mem_filter.mp hb).2
    exact ha.trans hb.symm
  have hsub' := hsub.filter (key · = n)
  rw [List.filter_filter, List.filter_congr fun a _ => Bool.and_self _] at hsub'
  exact (hsub'.eq_of_length (inOrder_perm.filter _).length_eq.symm).symm

/-- An order by a number is known from the things of each number. -/
theorem eq_of_filter_eq (hxs : xs.Pairwise (key · ≤ key ·)) (hys : ys.Pairwise (key · ≤ key ·))
    (h : ∀ n, xs.filter (key · = n) = ys.filter (key · = n)) : xs = ys := by
  have hmem {xs ys : List α} (h : ∀ n, xs.filter (key · = n) = ys.filter (key · = n)) {a : α}
      (ha : a ∈ xs) : a ∈ ys := by
    have hfilter : a ∈ xs.filter (key · = key a) := List.mem_filter.mpr ⟨ha, by simp⟩
    rw [h] at hfilter
    exact List.mem_of_mem_filter hfilter
  induction xs generalizing ys with
  | nil =>
    cases ys with
    | nil => rfl
    | cons b ys => exact absurd (hmem (fun n => (h n).symm) List.mem_cons_self) List.not_mem_nil
  | cons a xs ih =>
    cases ys with
    | nil => exact absurd (hmem h List.mem_cons_self) List.not_mem_nil
    | cons b ys =>
      obtain ⟨ha, hxs'⟩ := List.pairwise_cons.mp hxs
      obtain ⟨hb, hys'⟩ := List.pairwise_cons.mp hys
      have hle {a b : α} {xs : List α} (hall : ∀ c ∈ xs, key a ≤ key c) (hmem : b ∈ a :: xs) :
          key a ≤ key b :=
        (List.mem_cons.mp hmem).elim (fun heq => heq ▸ Nat.le_refl _) (hall b)
      have hkey : key a = key b := Nat.le_antisymm
        (hle ha (hmem (fun n => (h n).symm) List.mem_cons_self))
        (hle hb (hmem h List.mem_cons_self))
      have hhead := h (key a)
      rw [List.filter_cons_of_pos (by simp), List.filter_cons_of_pos (by simp [hkey])] at hhead
      obtain ⟨rfl, htail⟩ := List.cons.inj hhead
      refine congrArg (a :: ·) (ih hxs' hys' fun n => ?_)
      by_cases hn : key a = n
      · exact hn ▸ htail
      · have hrest := h n
        rwa [List.filter_cons_of_neg (by simpa using hn),
          List.filter_cons_of_neg (by simpa using hn)] at hrest

theorem inOrder_append (h : ∀ a ∈ xs, ∀ b ∈ ys, key a ≤ key b) :
    inOrder key (xs ++ ys) = inOrder key xs ++ inOrder key ys := by
  refine eq_of_filter_eq pairwise_inOrder (List.pairwise_append.mpr
    ⟨pairwise_inOrder, pairwise_inOrder, fun a ha b hb => ?_⟩) fun n => ?_
  · exact h a (inOrder_perm.mem_iff.mp ha) b (inOrder_perm.mem_iff.mp hb)
  · simp only [List.filter_append, filter_inOrder]

/-- Those below a bound come before the others. -/
theorem inOrder_split (bound : Nat) :
    inOrder key (xs.filter (key · < bound)) ++ inOrder key (xs.filter (bound ≤ key ·)) =
      inOrder key xs := by
  refine eq_of_filter_eq (List.pairwise_append.mpr
    ⟨pairwise_inOrder, pairwise_inOrder, fun a ha b hb => ?_⟩) pairwise_inOrder fun n => ?_
  · have ha := of_decide_eq_true (List.mem_filter.mp (inOrder_perm.mem_iff.mp ha)).2
    have hb := of_decide_eq_true (List.mem_filter.mp (inOrder_perm.mem_iff.mp hb)).2
    exact Nat.le_of_lt (Nat.lt_of_lt_of_le ha hb)
  · simp only [List.filter_append, filter_inOrder, List.filter_filter]
    by_cases hn : n < bound
    · have hlow : xs.filter (fun a => key a = n && key a < bound) = xs.filter (key · = n) :=
        List.filter_congr fun a _ => by grind
      have hhigh : xs.filter (fun a => key a = n && bound ≤ key a) = [] :=
        List.filter_eq_nil_iff.mpr fun a _ => by grind
      rw [hlow, hhigh, List.append_nil]
    · have hlow : xs.filter (fun a => key a = n && key a < bound) = [] :=
        List.filter_eq_nil_iff.mpr fun a _ => by grind
      have hhigh : xs.filter (fun a => key a = n && bound ≤ key a) = xs.filter (key · = n) :=
        List.filter_congr fun a _ => by grind
      rw [hlow, hhigh, List.nil_append]

end inOrder

/-! ### The latest number -/

theorem foldl_max_filter {ns : List Nat} {p : Nat → Bool} {low : Nat}
    (h : ∀ n ∈ ns, p n = false → n ≤ low) : (ns.filter p).foldl max low = ns.foldl max low := by
  induction ns generalizing low with
  | nil => rfl
  | cons n ns ih =>
    have hns : ∀ m ∈ ns, p m = false → m ≤ max low n := fun m hm hp =>
      Nat.le_trans (h m (List.mem_cons_of_mem n hm) hp) (Nat.le_max_left _ _)
    cases hp : p n with
    | true => rw [List.filter_cons_of_pos hp, List.foldl_cons, List.foldl_cons, ih hns]
    | false =>
      have hmax : max low n = low := Nat.max_eq_left (h n List.mem_cons_self hp)
      rw [List.filter_cons_of_neg (by simp [hp]), List.foldl_cons, hmax]
      exact ih (hmax ▸ hns)

theorem foldl_max_le {ns : List Nat} {low high : Nat} (hlow : low ≤ high)
    (h : ∀ n ∈ ns, n ≤ high) : ns.foldl max low ≤ high :=
  List.foldlRecOn _ _ (motive := (· ≤ high)) hlow fun _ hm n hn => Nat.max_le.mpr ⟨hm, h n hn⟩

theorem low_le_foldl_max {ns : List Nat} (low : Nat) : low ≤ ns.foldl max low :=
  List.foldlRecOn _ _ (motive := (low ≤ ·)) (Nat.le_refl _) fun _ hm _ _ =>
    Nat.le_trans hm (Nat.le_max_left _ _)

theorem le_foldl_max {ns : List Nat} {n : Nat} (hn : n ∈ ns) (low : Nat) :
    n ≤ ns.foldl max low := by
  induction ns generalizing low with
  | nil => cases hn
  | cons m ns ih =>
    obtain rfl | hn := List.mem_cons.mp hn
    · exact Nat.le_trans (Nat.le_max_right _ _) (low_le_foldl_max _)
    · exact ih hn _

theorem foldl_max_perm {ns ms : List Nat} (h : ns.Perm ms) (low : Nat) :
    ns.foldl max low = ms.foldl max low :=
  h.foldl_eq' (fun _ _ _ _ _ => Nat.max_right_comm _ _ _) low

end Popularity
