import Popularity.Proofs.Database.SerialOrder
import Popularity.Proofs.ItemOrder
import Mathlib.Algebra.BigOperators.Group.Finset.Basic

/-!
# Reads that are put together

A list of reads is put together first: each item is sent once, with the number of its reads. It
comes to the same as the reads one after another. Both go through if all items can be held and no
counter is too high for the reads of the items that share it; sums that only grow reach the end of
the range in parts just if they do so at once. The order of the list is lost when the items are
sorted, so it does not matter.

What an item's row has gained is the number of its reads, if the items of the list are held under
their own kinds.

## Main definitions

* `Item.held?` — the item under which the tables hold another
* `Tables.Fits` — tables with room for some additions

## Main results

* `Script.evaluate_addAll_iff`, `Server.Calm.reads_iff` — both ways go through if there is room
* `Script.merged_perm` — the order of a list of reads is lost
* `Server.readAll_merges` — reads that are put together come to the same
-/

namespace Popularity

/-! ### Where items are held -/

/-- The item under which the tables hold the counts of an item, if they can hold any. -/
def Item.held? (i : Item) : Option Item :=
  if i.kind.toList.contains '\x00' then none else (Statement.fitItem i).toOption

theorem Item.held?_eq_some_iff {i j : Item} :
    i.held? = some j ↔ i.kind.toList.contains '\x00' = false ∧ Statement.fitItem i = .ok j := by
  unfold Item.held?
  rcases Statement.fitItem i with why | j' <;> simp [Except.toOption]

/-- What some additions come to. -/
def Script.held (l : List (Item × Int64)) : List Adjustment :=
  l.filterMap fun r => r.1.held?.map fun j => ⟨j, .reads, r.2⟩

section Held

open Script (held)

variable {i j : Item} {k : Counter} {n : Int64} {l : List (Item × Int64)}

theorem Script.held_append (l l' : List (Item × Int64)) : held (l ++ l') = held l ++ held l' :=
  List.filterMap_append

theorem Script.held_singleton (h : i.held? = some j) : held [(i, n)] = [⟨j, .reads, n⟩] := by
  simp [held, h]

theorem Script.exists_mem_held :
    (∃ a ∈ held l, a.item = j) ↔ ∃ r ∈ l, r.1.held? = some j := by
  simp [held]

theorem Script.total_held (j : Item) (l : List (Item × Int64)) :
    Adjustment.total j .reads (held l)
      = (l.map fun r => if r.1.held? = some j then r.2.toInt else 0).sum := by
  induction l with
  | nil => rfl
  | cons r l ih =>
    have happend : held (r :: l) = held [r] ++ held l := Script.held_append [r] l
    rw [happend, Adjustment.total_append, ih, List.map_cons, List.sum_cons]
    cases hr : r.1.held? with
    | none => simp [held, hr]
    | some j' => simp [held, hr]

/-- Only reads are added. -/
theorem Script.total_held_of_ne (hk : k ≠ .reads) (j : Item) (l : List (Item × Int64)) :
    Adjustment.total j k (held l) = 0 := by
  induction l with
  | nil => rfl
  | cons r l ih =>
    have happend : held (r :: l) = held [r] ++ held l := Script.held_append [r] l
    rw [happend, Adjustment.total_append, ih]
    cases hr : r.1.held? <;> simp [held, hr, Ne.symm hk]

end Held

/-! ### One addition -/

namespace Statement

variable {now : Nat} {t t' : Tables} {i : Item} {k : Counter} {n : Int64} {u : Unit}

/-- What is added to an item is added to the one under which it is held. -/
theorem counted_of_exec_add (h : (add i k n).exec now t = .ok (u, t')) :
    ∃ j, i.held? = some j ∧ t.Counted [⟨j, k, n⟩] t' := by
  have heffect := effect_of_exec_eq_ok h
  rw [effect, map_eq_pure_bind] at heffect
  obtain ⟨t₁, hadd, hlast⟩ := exists_of_bind_eq_ok heffect
  cases hlast
  obtain ⟨j, hfit, -⟩ := exists_of_bind_eq_ok hadd
  refine ⟨j, Item.held?_eq_some_iff.mpr ⟨?_, hfit⟩, Tables.counted_execAdd_of_fit hfit hadd⟩
  unfold exec at h
  split at h
  · cases h
  next hzero => exact Bool.eq_false_of_not_eq_true hzero

theorem exists_execAdd {j : Item} (hfit : fitItem i = .ok j)
    (hlow : -Word.bound ≤ Row.amount (t.row j) k + n.toInt)
    (hhigh : Row.amount (t.row j) k + n.toInt < Word.bound) :
    ∃ t', execAdd now i k n t = .ok t' := by
  have hpure : fitItem i = pure j := hfit
  rw [execAdd, hpure, pure_bind]
  cases hrow : t.counts.get? j with
  | none => exact ⟨_, rfl⟩
  | some row =>
    rw [Tables.row_of_get? hrow, Row.amount_some] at hlow hhigh
    have hsum : row.value.add? k n
        = some (row.value.put k (Int64.ofInt ((row.value.get k).toInt + n.toInt))) := by
      rw [Counts.add?, Word.plus?, Word.ofInt?, if_pos ⟨hlow, hhigh⟩, Option.map_some]
    exact ⟨_, by simp only [plus, hsum]; rfl⟩

/-- **An addition goes through** if its item can be held and there is room in its counter. -/
theorem exists_exec_add_iff (hn : 0 ≤ n.toInt) :
    (∃ t', (add i k n).exec now t = .ok ((), t')) ↔
      ∃ j, i.held? = some j ∧ Row.amount (t.row j) k + n.toInt < Word.bound := by
  constructor
  · rintro ⟨t', h⟩
    obtain ⟨j, hj, hcounted⟩ := counted_of_exec_add h
    refine ⟨j, hj, ?_⟩
    have hmoved := (hcounted.moved j).amount k
    rw [Adjustment.total_cons, Adjustment.total_nil, if_pos ⟨rfl, rfl⟩, Int.add_zero] at hmoved
    rw [← hmoved]
    exact Int64.toInt_lt _
  · rintro ⟨j, hj, hhigh⟩
    obtain ⟨hzero, hfit⟩ := Item.held?_eq_some_iff.mp hj
    have hlow : -Word.bound ≤ Row.amount (t.row j) k := Int64.le_toInt _
    obtain ⟨t', hadd⟩ : ∃ t', execAdd now i k n t = .ok t' :=
      exists_execAdd hfit (by omega) hhigh
    refine ⟨t', ?_⟩
    unfold exec
    rw [if_neg (by simpa [kind?] using hzero), effect, hadd]
    rfl

end Statement

/-! ### Some additions -/

/-- All items can be held, and their counters have room for all that is added. -/
structure Tables.Fits (t : Tables) (l : List (Item × Int64)) : Prop where
  held : ∀ r ∈ l, r.1.held?.isSome
  room : ∀ j, Row.amount (t.row j) .reads + Adjustment.total j .reads (Script.held l) < Word.bound

namespace Tables

variable {t : Tables} {i j : Item} {n : Int64} {l l' : List (Item × Int64)}

theorem fits_nil (t : Tables) : t.Fits [] :=
  ⟨nofun, fun _ => (Int.add_zero _).trans_lt (Int64.toInt_lt _)⟩

/-- There is room for one more if the others fit and it fits after them. -/
theorem fits_concat (hn : 0 ≤ n.toInt) :
    t.Fits (l ++ [(i, n)]) ↔ t.Fits l ∧ ∃ j, i.held? = some j ∧
      Row.amount (t.row j) .reads + Adjustment.total j .reads (Script.held l) + n.toInt
        < Word.bound := by
  have htotal {j : Item} (hj : i.held? = some j) (j' : Item) :
      Adjustment.total j' .reads (Script.held (l ++ [(i, n)]))
        = Adjustment.total j' .reads (Script.held l) + if j = j' then n.toInt else 0 := by
    rw [Script.held_append, Script.held_singleton hj]
    simp
  constructor
  · rintro ⟨hheld, hroom⟩
    obtain ⟨hheld, hlast⟩ := List.forall_mem_append.mp hheld
    obtain ⟨j, hj⟩ := Option.isSome_iff_exists.mp (hlast (i, n) List.mem_cons_self)
    refine ⟨⟨hheld, fun j' => ?_⟩, j, hj, ?_⟩
    · have hj' := hroom j'
      rw [htotal hj j'] at hj'
      split at hj' <;> omega
    · have hj' := hroom j
      rw [htotal hj, if_pos rfl] at hj'
      omega
  · rintro ⟨⟨hheld, hroom⟩, j, hj, hlast⟩
    have hlast' : ∀ r ∈ [(i, n)], r.1.held?.isSome :=
      List.forall_mem_singleton.mpr (Option.isSome_of_eq_some hj)
    refine ⟨List.forall_mem_append.mpr ⟨hheld, hlast'⟩, fun j' => ?_⟩
    have hj' := hroom j'
    rw [htotal hj j']
    split
    next heq =>
      subst heq
      omega
    next => omega

/-- It only matters which items there are, and what is added to each in all. -/
theorem Fits.congr (h : t.Fits l) (hitems : ∀ r ∈ l', ∃ r' ∈ l, r'.1 = r.1)
    (htotal : ∀ j, Adjustment.total j .reads (Script.held l')
      = Adjustment.total j .reads (Script.held l)) : t.Fits l' where
  held r hr := by
    obtain ⟨r', hr', heq⟩ := hitems r hr
    exact heq ▸ h.held r' hr'
  room j := by
    rw [htotal]
    exact h.room j

end Tables

namespace Script

variable {now : Nat} {t t' : Tables} {l : List (Item × Int64)} {i : Item} {n : Int64}

/-- The statements that add something to items. -/
def addAll (l : List (Item × Int64)) : Script Unit := l.forM fun r => send (.add r.1 .reads r.2)

theorem run_addAll_nil : (addAll []).run = .done (.ok ()) := rfl

theorem run_addAll_cons (r : Item × Int64) (l : List (Item × Int64)) :
    (addAll (r :: l)).run = .ask (.add r.1 .reads r.2) fun _ => (addAll l).run := rfl

theorem evaluate_addAll_concat :
    evaluate now (addAll (l ++ [(i, n)])).run t = .ok (.ok (), t') ↔
      ∃ t₁, evaluate now (addAll l).run t = .ok (.ok (), t₁) ∧
        (Statement.add i .reads n).exec now t₁ = .ok ((), t') := by
  induction l generalizing t with
  | nil =>
    rw [List.nil_append, run_addAll_cons, run_addAll_nil]
    rcases hexec : (Statement.add i .reads n).exec now t with why | ⟨u, t₁⟩
    · rw [evaluate_ask_error hexec]
      simp [evaluate, hexec]
    · rw [evaluate_ask_ok hexec]
      simp [evaluate, hexec]
  | cons r l ih =>
    rw [List.cons_append, run_addAll_cons, run_addAll_cons]
    rcases hexec : (Statement.add r.1 .reads r.2).exec now t with why | ⟨u, t₁⟩
    · rw [evaluate_ask_error hexec, evaluate_ask_error hexec]
      simp
    · rw [evaluate_ask_ok hexec, evaluate_ask_ok hexec]
      exact ih

/-- What has been added is counted. -/
theorem counted_of_evaluate_addAll (h : evaluate now (addAll l).run t = .ok (.ok (), t')) :
    t.Counted (held l) t' := by
  induction l using List.reverseRecOn generalizing t' with
  | nil =>
    cases h
    exact Tables.Counted.refl
  | append_singleton l r ih =>
    obtain ⟨i, n⟩ := r
    obtain ⟨t₁, hfirst, hlast⟩ := evaluate_addAll_concat.mp h
    obtain ⟨j, hj, hcounted⟩ := Statement.counted_of_exec_add hlast
    rw [held_append, held_singleton hj]
    exact (ih hfirst).append hcounted

/-- There is room for one more after some additions if they all fit. -/
theorem fits_concat_iff {t₁ : Tables} (hcounted : t.Counted (held l) t₁) (hl : t.Fits l)
    (hn : 0 ≤ n.toInt) :
    t.Fits (l ++ [(i, n)]) ↔ ∃ t', (Statement.add i .reads n).exec now t₁ = .ok ((), t') := by
  rw [Tables.fits_concat hn, Statement.exists_exec_add_iff hn]
  simp only [(hcounted.moved _).amount, hl, true_and]

/-- **Additions go through one after another** if there is room for all of them. -/
theorem evaluate_addAll_iff (now : Nat) (hl : ∀ r ∈ l, 0 ≤ r.2.toInt) :
    (∃ t', evaluate now (addAll l).run t = .ok (.ok (), t')) ↔ t.Fits l := by
  induction l using List.reverseRecOn with
  | nil => exact iff_of_true ⟨t, rfl⟩ (Tables.fits_nil t)
  | append_singleton l r ih =>
    obtain ⟨i, n⟩ := r
    obtain ⟨hl, hlast⟩ := List.forall_mem_append.mp hl
    have hn : 0 ≤ n.toInt := hlast (i, n) List.mem_cons_self
    have ih := ih hl
    simp only [evaluate_addAll_concat]
    constructor
    · rintro ⟨t', t₁, hfirst, hlast⟩
      exact (fits_concat_iff (counted_of_evaluate_addAll hfirst) (ih.mp ⟨t₁, hfirst⟩) hn).mpr
        ⟨t', hlast⟩
    · intro hfits
      obtain ⟨t₁, hfirst⟩ := ih.mpr ((Tables.fits_concat hn).mp hfits).1
      obtain ⟨t', hlast⟩ := (fits_concat_iff (counted_of_evaluate_addAll hfirst)
        (ih.mp ⟨t₁, hfirst⟩) hn).mp hfits
      exact ⟨t', t₁, hfirst, hlast⟩

/-! ### Reads -/

/-- Each read for itself. -/
def once (is : List Item) : List (Item × Int64) := is.map (·, 1)

theorem toInt_nonneg_of_mem_merged {is : List Item} (hlength : is.length < 2 ^ 63)
    {r : Item × Int64} (hr : r ∈ merged is) : 0 ≤ r.2.toInt := by
  obtain ⟨i, -, rfl⟩ := List.mem_map.mp hr
  rw [Int64.toInt_ofNat_of_lt (Nat.lt_of_le_of_lt List.count_le_length hlength)]
  exact Int.natCast_nonneg _

/-- A sum over a list is the sum over what is in it, each as often as it is. -/
theorem sum_distinct {is ds : List Item} (hnodup : ds.Nodup) (hmem : ∀ i, i ∈ ds ↔ i ∈ is)
    (g : Item → Int) : (ds.map fun i => is.count i * g i).sum = (is.map g).sum := by
  have hset : ds.toFinset = is.toFinset := by
    ext i
    simp [hmem]
  rw [← List.sum_toFinset _ hnodup, hset, Finset.sum_list_map_count]
  simp

/-- **Putting reads together loses none of them**, wherever their items are held. -/
theorem total_held_merged {is : List Item} (hlength : is.length < 2 ^ 63) (j : Item) :
    Adjustment.total j .reads (held (merged is)) = Adjustment.total j .reads (held (once is)) := by
  have hperm := List.mergeSort_perm is.eraseDups Item.before
  have hnodup : (is.eraseDups.mergeSort Item.before).Nodup :=
    hperm.nodup_iff.mpr (nodup_eraseDups is)
  have hmem (i : Item) : i ∈ is.eraseDups.mergeSort Item.before ↔ i ∈ is := by
    rw [hperm.mem_iff, List.mem_eraseDups]
  have hcount (i : Item) : (Int64.ofNat (is.count i)).toInt = is.count i :=
    Int64.toInt_ofNat_of_lt (Nat.lt_of_le_of_lt List.count_le_length hlength)
  rw [total_held, total_held, merged, once, List.map_map, List.map_map]
  refine Eq.trans ?_ (sum_distinct hnodup hmem fun i => if i.held? = some j then 1 else 0)
  congr 1
  refine List.map_congr_left fun i _ => ?_
  simp [hcount]

theorem fits_merged_iff {is : List Item} (hlength : is.length < 2 ^ 63) :
    t.Fits (merged is) ↔ t.Fits (once is) := by
  constructor
  · refine fun h => h.congr (fun r hr => ?_) fun j => (total_held_merged hlength j).symm
    obtain ⟨i, hi, rfl⟩ := List.mem_map.mp hr
    exact exists_mem_merged hi
  · refine fun h => h.congr (fun r hr => ?_) (total_held_merged hlength)
    exact ⟨(r.1, 1), List.mem_map_of_mem (mem_merged hr), rfl⟩

/-- Rows are moved alike, whether reads are put together or not. -/
theorem moved_merged {is : List Item} (hlength : is.length < 2 ^ 63) {j : Item}
    {r r' : Option Counts} (h : Row.Moved j (held (merged is)) r r') :
    Row.Moved j (held (once is)) r r' := by
  refine h.congr ?_ fun k => ?_
  · rw [exists_mem_held, exists_mem_held]
    constructor
    · rintro ⟨r, hr, hj⟩
      exact ⟨(r.1, 1), List.mem_map_of_mem (mem_merged hr), hj⟩
    · rintro ⟨r, hr, hj⟩
      obtain ⟨i, hi, rfl⟩ := List.mem_map.mp hr
      obtain ⟨r', hr', rfl⟩ := exists_mem_merged hi
      exact ⟨r', hr', hj⟩
  · by_cases hk : k = .reads
    · rw [hk]
      exact total_held_merged hlength j
    · rw [total_held_of_ne hk, total_held_of_ne hk]

/-- Items that are held under their own kinds are counted each for itself. -/
theorem held_once {is : List Item} (hexact : ∀ i ∈ is, i.Exact)
    (hheld : ∀ i ∈ is, i.held?.isSome) : held (once is) = (Write.readAll is).adjustments := by
  induction is with
  | nil => rfl
  | cons i is ih =>
    obtain ⟨j, hj⟩ := Option.isSome_iff_exists.mp (hheld i List.mem_cons_self)
    obtain rfl : j = i :=
      (hexact i List.mem_cons_self).eq_of_fitItem (Item.held?_eq_some_iff.mp hj).2
    have happend : held (once (j :: is)) = held [(j, 1)] ++ held (once is) :=
      held_append [(j, 1)] (once is)
    rw [happend, held_singleton hj, ih (fun i hi => hexact i (List.mem_cons_of_mem _ hi))
      fun i hi => hheld i (List.mem_cons_of_mem _ hi)]
    rfl

/-- **The order of a list of reads is lost.** -/
theorem merged_perm {is is' : List Item} (h : is.Perm is') : merged is = merged is' := by
  have hmem (i : Item) : i ∈ is.eraseDups ↔ i ∈ is'.eraseDups := by
    rw [List.mem_eraseDups, List.mem_eraseDups, h.mem_iff]
  have hperm : is.eraseDups.Perm is'.eraseDups :=
    (List.perm_ext_iff_of_nodup (nodup_eraseDups is) (nodup_eraseDups is')).mpr hmem
  have hsorted : is.eraseDups.mergeSort Item.before = is'.eraseDups.mergeSort Item.before := by
    refine List.Perm.eq_of_pairwise (fun i j _ _ hij hji => ?_)
      (Item.pairwise_below (nodup_eraseDups is)) (Item.pairwise_below (nodup_eraseDups is'))
      ((List.mergeSort_perm _ _).trans (hperm.trans (List.mergeSort_perm _ _).symm))
    exact absurd (hij.trans hji) (Item.Below.irrefl i)
  rw [merged, merged, hsorted]
  exact List.map_congr_left fun i _ => by rw [h.count_eq]

theorem ofWrite_readAll_perm {is is' : List Item} (h : is.Perm is') :
    ofWrite (.readAll is) = ofWrite (.readAll is') := by
  cases is with
  | nil => rw [h.nil_eq]
  | cons i is =>
    cases is' with
    | nil => exact absurd h.symm.nil_eq nofun
    | cons i' is' =>
      change (transaction (addAll (merged (i :: is))) >>= fun _ => pure true)
        = (transaction (addAll (merged (i' :: is'))) >>= fun _ => pure true)
      rw [merged_perm h]

theorem evaluate_readAll_iff {is : List Item} {b : Bool} :
    evaluate now (ofWrite (.readAll is)).run t = .ok (.ok b, t') ↔
      b = true ∧ evaluate now (addAll (merged is)).run t = .ok (.ok (), t') := by
  cases is with
  | nil =>
    rw [merged_nil]
    change Except.ok (Except.ok true, t) = Except.ok (Except.ok b, t') ↔
      _ ∧ Except.ok (Except.ok (), t) = Except.ok (Except.ok (), t')
    simp [eq_comm]
  | cons i is =>
    change evaluate now (transaction (addAll (merged (i :: is))) >>= fun _ => pure true).run t
      = _ ↔ _
    rw [ExceptT.run_bind, evaluate_bind, evaluate_transaction]
    rcases evaluate now (addAll (merged (i :: is))).run t with why | ⟨_ | u, t₁⟩
    · simp [Except.bind]
    · change Except.ok (Except.error _, t₁) = Except.ok (Except.ok b, t') ↔ _
      simp
    · change Except.ok (Except.ok true, t₁) = Except.ok (Except.ok b, t') ↔ _
      simp [eq_comm]

theorem run_read (i : Item) :
    (ofWrite (.read i)).run = .ask (.add i .reads 1) fun _ => .done (.ok true) := rfl

theorem evaluate_read_iff {b : Bool} :
    evaluate now (ofWrite (.read i)).run t = .ok (.ok b, t') ↔
      b = true ∧ (Statement.add i .reads 1).exec now t = .ok ((), t') := by
  rw [run_read]
  rcases hexec : (Statement.add i .reads 1).exec now t with why | ⟨u, t₁⟩
  · rw [evaluate_ask_error hexec]
    simp
  · rw [evaluate_ask_ok hexec]
    simp [evaluate, eq_comm]

end Script

/-! ### Servers -/

namespace Server

open Script (held merged once)

variable {v : Server} {t t' : Tables} {is : List Item} {w : Write}

/-- What a write on a calm server comes to, and what it leaves. -/
theorem Calm.serve_iff (h : v.Calm) (ht : v.tables = some t) {b : Bool} :
    (v.serve (Script.ofWrite w)).1 = .ok b ∧ (v.serve (Script.ofWrite w)).2.tables = some t' ↔
      Script.evaluate (v.clock + 1) (Script.ofWrite w).run t = .ok (.ok b, t') := by
  have hresult := h.serve_ofWrite ht w
  rcases serve_cases (Script.whole_ofWrite w) v with
    ⟨why, faults, issued, hserve⟩ | ⟨a, tables, faults, issued, hserve, hdone⟩
  · rw [hserve] at hresult ⊢
    refine iff_of_false nofun fun heval => ?_
    rw [heval] at hresult
    cases hresult
  · obtain ⟨t₁, rfl, htables⟩ := hdone h.draft t ht
    rw [Script.onTables_eq] at htables
    rw [hserve]
    rcases heval : Script.evaluate (v.clock + 1) (Script.ofWrite w).run t with why | r
    · rw [heval] at htables
      cases htables
    · rw [heval] at htables
      cases htables
      simp

theorem Calm.exists_serve_iff (h : v.Calm) (ht : v.tables = some t) :
    (v.serve (Script.ofWrite w)).1.toBool = true ↔
      ∃ b t', Script.evaluate (v.clock + 1) (Script.ofWrite w).run t = .ok (.ok b, t') := by
  constructor
  · intro hok
    rcases hresult : (v.serve (Script.ofWrite w)).1 with why | b
    · rw [hresult] at hok
      cases hok
    · rcases serve_cases (Script.whole_ofWrite w) v with
        ⟨why, faults, issued, hserve⟩ | ⟨a, tables, faults, issued, hserve, hdone⟩
      · rw [hserve] at hresult
        cases hresult
      · obtain ⟨t₁, rfl, -⟩ := hdone h.draft t ht
        exact ⟨b, t₁, (h.serve_iff ht).mp ⟨hresult, by rw [hserve]⟩⟩
  · rintro ⟨b, t', heval⟩
    rw [((h.serve_iff ht).mpr heval).1]
    rfl

/-- Reads that are put together go through if there is room for all of them. -/
theorem Calm.readAll_iff (h : v.Calm) (ht : v.tables = some t) (hlength : is.length < 2 ^ 63) :
    (v.serve (Script.ofWrite (.readAll is))).1.toBool = true ↔ t.Fits (once is) := by
  have hnonneg := fun r hr => Script.toInt_nonneg_of_mem_merged (r := r) hlength hr
  rw [h.exists_serve_iff ht, ← Script.fits_merged_iff hlength,
    ← Script.evaluate_addAll_iff (v.clock + 1) hnonneg]
  simp only [Script.evaluate_readAll_iff, exists_and_left, exists_eq_left]

theorem Calm.exists_readAll (h : v.Calm) (ht : v.tables = some t) (hlength : is.length < 2 ^ 63)
    (hfits : t.Fits (once is)) :
    ∃ t', (v.serve (Script.ofWrite (.readAll is))).2.tables = some t' ∧
      t.Counted (held (merged is)) t' := by
  obtain ⟨b, t', heval⟩ := (h.exists_serve_iff ht).mp ((h.readAll_iff ht hlength).mpr hfits)
  exact ⟨t', ((h.serve_iff ht).mpr heval).2,
    Script.counted_of_evaluate_addAll (Script.evaluate_readAll_iff.mp heval).2⟩

/-- One more read goes through if there is room for it. -/
theorem Calm.read_iff (h : v.Calm) (ht : v.tables = some t) {i : Item} :
    (v.serve (Script.ofWrite (.read i))).1.toBool = true ↔
      ∃ t', (Statement.add i .reads 1).exec (v.clock + 1) t = .ok ((), t') := by
  rw [h.exists_serve_iff ht]
  simp only [Script.evaluate_read_iff, exists_and_left, exists_eq_left]

/-- **Reads one after another go through if there is room for all of them.** -/
theorem Calm.reads_iff (h : v.Calm) (ht : v.tables = some t) (is : List Item) :
    ((v.history (is.map .read).reverse).all (·.result.toBool) = true ↔ t.Fits (once is)) ∧
      (t.Fits (once is) → ∃ t', (v.after (is.map .read).reverse).tables = some t' ∧
        t.Counted (held (once is)) t') := by
  induction is using List.reverseRecOn with
  | nil => exact ⟨iff_of_true rfl (Tables.fits_nil t), fun _ => ⟨t, ht, Tables.Counted.refl⟩⟩
  | append_singleton is i ih =>
    have hone : 0 ≤ (1 : Int64).toInt := by decide
    have hlast : ((is ++ [i]).map Write.read).reverse = .read i :: (is.map .read).reverse := by
      simp
    have honce : once (is ++ [i]) = once is ++ [(i, 1)] := by simp [once]
    have hcalm := calm_after h (is.map .read).reverse
    obtain ⟨hiff, hafter⟩ := ih
    rw [hlast, honce, history, List.all_cons, Bool.and_eq_true]
    constructor
    · constructor
      · rintro ⟨hread, hreads⟩
        obtain ⟨t₁, ht₁, hcounted⟩ := hafter (hiff.mp hreads)
        exact (Script.fits_concat_iff hcounted (hiff.mp hreads) hone).mpr
          ((hcalm.read_iff ht₁).mp hread)
      · intro hfits
        have hreads := ((Tables.fits_concat hone).mp hfits).1
        obtain ⟨t₁, ht₁, hcounted⟩ := hafter hreads
        exact ⟨(hcalm.read_iff ht₁).mpr ((Script.fits_concat_iff hcounted hreads hone).mp hfits),
          hiff.mpr hreads⟩
    · intro hfits
      have hreads := ((Tables.fits_concat hone).mp hfits).1
      obtain ⟨t₁, ht₁, hcounted⟩ := hafter hreads
      obtain ⟨t', hadd⟩ := (Script.fits_concat_iff hcounted hreads hone).mp hfits
      obtain ⟨j, hj, hlast⟩ := Statement.counted_of_exec_add hadd
      refine ⟨t', ((hcalm.serve_iff ht₁).mpr (Script.evaluate_read_iff.mpr ⟨rfl, hadd⟩)).2, ?_⟩
      rw [Script.held_append, Script.held_singleton hj]
      exact hcounted.append hlast

/-- **Reads that are put together come to the same.** The order of the list does not matter; if they
fail, nothing is changed. On a calm server they go through just if the reads one after another
would, and leave the same rows and marks. If the items are held under their own kinds, each has
gained as many reads as it has in the list, and the rows that were missing are there. -/
theorem readAll_merges (v : Server) (t : Tables) (is : List Item) (ht : v.tables = some t)
    (hlength : is.length < 2 ^ 63) :
    let r := v.serve (Script.ofWrite (.readAll is))
    let reads := (is.map Write.read).reverse
    (∀ is', is.Perm is' → v.serve (Script.ofWrite (.readAll is')) = r) ∧
    (r.1.toBool = false → r.2.tables = some t) ∧
    (v.Calm → r.1.toBool = (v.history reads).all (·.result.toBool)) ∧
    (v.Calm → r.1.toBool = true → ∃ t₁ t₂, r.2.tables = some t₁ ∧
      (v.after reads).tables = some t₂ ∧ t₁.Alike t₂ ∧
      ((∀ i ∈ is, i.Exact) → ∀ i, ((t₁.row i).isSome ↔ (t.row i).isSome ∨ i ∈ is) ∧
        ∀ k, Row.amount (t₁.row i) k
          = Row.amount (t.row i) k + if k = .reads then (is.count i : Int) else 0)) := by
  refine ⟨fun is' hperm => ?_, fun hfailed => ?_, fun h => ?_, fun h hok => ?_⟩
  · rw [Script.ofWrite_readAll_perm hperm]
  · rcases serve_cases (Script.whole_ofWrite (.readAll is)) v with
      ⟨why, faults, issued, hserve⟩ | ⟨a, tables, faults, issued, hserve, -⟩
    · rw [hserve]
      exact ht
    · rw [hserve] at hfailed
      cases hfailed
  · rw [Bool.eq_iff_iff, h.readAll_iff ht hlength, (h.reads_iff ht is).1]
  · have hfits := (h.readAll_iff ht hlength).mp hok
    obtain ⟨t₁, ht₁, hcounted₁⟩ := h.exists_readAll ht hlength hfits
    obtain ⟨t₂, ht₂, hcounted₂⟩ := (h.reads_iff ht is).2 hfits
    have hmoved (i : Item) := Script.moved_merged hlength (hcounted₁.moved i)
    have hexactly (hexact : ∀ i ∈ is, i.Exact) (i : Item) :
        Row.Moved i (Write.readAll is).adjustments (t.row i) (t₁.row i) := by
      rw [← Script.held_once hexact fun i hi => hfits.held (i, 1) (List.mem_map_of_mem hi)]
      exact hmoved i
    refine ⟨t₁, t₂, ht₁, ht₂, ⟨fun i => (hmoved i).unique (hcounted₂.moved i), fun m key => ?_⟩,
      fun hexact i => ⟨?_, fun k => ?_⟩⟩
    · rw [Tables.mark?, Tables.mark?, hcounted₁.marks, hcounted₂.marks]
    · rw [(hexactly hexact i).isSome_iff]
      simp [Write.adjustments]
    · rw [(hexactly hexact i).amount, Script.total_reads]

/-- An article that was read five times, and a video that nobody has seen. -/
def article : Item := ⟨"article", 1⟩

/-- See `article`. -/
def video : Item := ⟨"video", 2⟩

/-- A server that knows the article. -/
def shelf : Server where
  tables := some { counts := [(article, .new ⟨5, 3, 0⟩ 0)] }

/-- The article is read twice and the video once, in whatever order. -/
theorem readAll_merges_shelf : ∃ t,
    (shelf.serve (Script.ofWrite (.readAll [article, video, article]))).2.tables = some t ∧
      Row.amount (t.row article) .reads = 7 ∧ Row.amount (t.row article) .likes = 3 ∧
      (t.row video).isSome ∧ Row.amount (t.row video) .reads = 1 ∧
      Row.amount (t.row video) .likes = 0 := by
  have hlengths : ∀ i ∈ [article, article, video], i.kind.length ≤ Statement.kindWidth := by
    decide +kernel
  have hexact : ∀ i ∈ [article, article, video], i.Exact := fun i hi =>
    Item.exact_of_length_le (hlengths i hi)
  have hcalm : shelf.Calm := ⟨⟨rfl, rfl⟩, rfl⟩
  obtain ⟨hperm, -, hboth, hsame⟩ :=
    readAll_merges shelf _ [article, article, video] rfl (by decide)
  obtain ⟨t, -, ht, -, -, hrows⟩ := hsame hcalm ((hboth hcalm).trans (by decide +kernel))
  refine ⟨t, ?_, ?_, ?_, ?_, ?_, ?_⟩
  · rw [hperm [article, video, article] (by decide)]
    exact ht
  · exact ((hrows hexact article).2 .reads).trans (by decide +kernel)
  · exact ((hrows hexact article).2 .likes).trans (by decide +kernel)
  · exact (hrows hexact video).1.mpr (.inr (by decide))
  · exact ((hrows hexact video).2 .reads).trans (by decide +kernel)
  · exact ((hrows hexact video).2 .likes).trans (by decide +kernel)

/-- Reads of an article whose kind is too long by a blank go through, and there is no row of it. -/
theorem readAll_ragged :
    (({} : Server).serve (Script.ofWrite (.readAll [ragged]))).1.toBool = true ∧
      (({} : Server).serve (Script.ofWrite (.readAll [ragged]))).2.tables.bind (·.row ragged)
        = none := by
  decide +kernel

end Server

end Popularity
