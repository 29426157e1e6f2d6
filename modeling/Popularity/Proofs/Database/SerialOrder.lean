import Popularity.Proofs.Database.Calm

/-!
# Writes in another order

Users do not get in each other's way. What a write comes to is known from the mark that it is
about, and that mark depends on the writes about it alone; the counts only depend on what was added
to them, and a sum does not depend on the order. So if two orders of the same writes agree about the
writes on each mark, every write has the same result in both, and the tables end up alike.

There are two exceptions. A counter may leave its range in one order and not in the other. And marks
of different items may share a row, if blanks are dropped from the kind of one of them.

## Main definitions

* `Tables.mark?` — the mark of a user on an item, in force or not
* `Turn.lay`, `Write.lay`, `Write.verdict` — what a write makes of a mark, and what it says then
* `Server.results` — what comes of calls one after another
* `Tables.Alike` — tables with the same values

## Main results

* `Server.Calm.followed` — what one write does
* `Server.Calm.settled` — what writes do one after another
* `Server.order_independent`
-/

namespace Popularity

/-! ### Marks -/

/-- What a turn makes of a mark. -/
def Turn.lay (x : Turn) (p : Option Placed) : Option Placed :=
  match x.folder with
  | some f => if p.any (·.standing = .active) then p else some ⟨f, .active⟩
  | none => p.map fun q => { q with standing := .inactive }

/-- Whether a turn finds anything to change. -/
def Turn.changes (x : Turn) (p : Option Placed) : Bool :=
  p.any (·.standing = .active) != x.folder.isSome

namespace Tables

variable {t t' : Tables} {m : Mark} {i : Item} {user folder : Int64} {now : Nat} {b : Bool}

/-- The mark of a user on an item, in force or not. -/
def mark? (t : Tables) (m : Mark) (key : Item × Int64) : Option Placed :=
  ((t.marks m).get? key).map (·.value)

theorem isSome_active?_eq (t : Tables) (m : Mark) (key : Item × Int64) :
    (t.active? m key).isSome = (t.mark? m key).any (·.standing = .active) := by
  rw [active?, mark?]
  cases (t.marks m).get? key with
  | none => rfl
  | some row => by_cases h : row.value.standing = .active <;> simp [h]

theorem mark?_eq_of_marks_eq (h : ∀ m, t'.marks m = t.marks m) (m : Mark) (key : Item × Int64) :
    t'.mark? m key = t.mark? m key := by
  rw [mark?, h, mark?]

theorem mark?_putMark (t : Tables) (m : Mark) (key : Item × Int64) (row : Stamped Placed)
    (n : Mark) (key' : Item × Int64) :
    (t.putMark m key row).mark? n key'
      = if m = n ∧ key = key' then some row.value else t.mark? n key' := by
  rw [mark?, marks_putMark]
  by_cases hn : n = m
  · subst hn
    by_cases hkey : key' = key
    · simp [Table.get?_put, hkey]
    · simp [Table.get?_put, hkey, Ne.symm hkey, mark?]
  · simp [hn, Ne.symm hn, mark?]

/-- Nothing but the mark of a turn is changed, and that one as the turn says. -/
def Laid (x : Turn) (t t' : Tables) : Prop :=
  ∀ m key, t'.mark? m key
    = if x.mark = m ∧ x.key = key then x.lay (t.mark? m key) else t.mark? m key

theorem laid_putMark {x : Turn} {row : Stamped Placed}
    (h : x.lay (t.mark? x.mark x.key) = some row.value) :
    Laid x t (t.putMark x.mark x.key row) := by
  intro m key
  rw [mark?_putMark]
  by_cases hkey : x.mark = m ∧ x.key = key
  · obtain ⟨rfl, rfl⟩ := hkey
    rw [if_pos ⟨rfl, rfl⟩, if_pos ⟨rfl, rfl⟩, h]
  · rw [if_neg hkey, if_neg hkey]

theorem laid_refl {x : Turn} (h : x.lay (t.mark? x.mark x.key) = t.mark? x.mark x.key) :
    Laid x t t := by
  intro m key
  by_cases hkey : x.mark = m ∧ x.key = key
  · obtain ⟨rfl, rfl⟩ := hkey
    rw [if_pos ⟨rfl, rfl⟩, h]
  · rw [if_neg hkey]

theorem laid_execMark (hi : i.Exact)
    (h : Statement.execMark now m i user folder t = .ok (b, t')) :
    Laid ⟨m, (i, user), some folder⟩ t t' := by
  unfold Statement.execMark at h
  obtain ⟨j, hfit, hput⟩ := exists_of_bind_eq_ok h
  obtain rfl := hi.eq_of_fitItem hfit
  dsimp only at hput
  cases hrow : (t.marks m).get? (j, user) with
  | none =>
    rw [hrow] at hput
    cases hput
    exact laid_putMark (x := ⟨m, (j, user), some folder⟩)
      (by simp [Turn.lay, mark?, hrow, Stamped.new])
  | some row =>
    rw [hrow] at hput
    dsimp only at hput
    split at hput
    next hactive =>
      cases hput
      exact laid_refl (by simp [Turn.lay, mark?, hrow, hactive])
    next hactive =>
      cases hput
      exact laid_putMark (x := ⟨m, (j, user), some folder⟩)
        (by simp [Turn.lay, mark?, hrow, hactive, Stamped.update])

theorem laid_execUnmark (h : Statement.execUnmark now m i user t = (b, t')) :
    Laid ⟨m, (i, user), none⟩ t t' := by
  unfold Statement.execUnmark at h
  cases hrow : t.active? m (i, user) with
  | none =>
    rw [hrow] at h
    cases h
    have hactive := isSome_active?_eq t m (i, user)
    rw [hrow] at hactive
    refine laid_refl ?_
    show (t.mark? m (i, user)).map _ = t.mark? m (i, user)
    rcases hmark : t.mark? m (i, user) with _ | ⟨folder, _ | _⟩
    · rfl
    · rfl
    · rw [hmark] at hactive
      cases hactive
  | some row =>
    rw [hrow] at h
    cases h
    obtain ⟨hget, -⟩ := Option.filter_eq_some_iff.mp hrow
    exact laid_putMark (x := ⟨m, (i, user), none⟩) (by simp [Turn.lay, mark?, hget, Stamped.update])

end Tables

namespace Write

variable {w : Write} {x : Turn} {m : Mark} {key : Item × Int64} {p : Option Placed}

/-- What a write makes of a mark, if it goes well. -/
def lay (w : Write) (m : Mark) (key : Item × Int64) (p : Option Placed) : Option Placed :=
  if w.flaw?.isSome then p else (w.turns? m key).elim p (·.lay p)

/-- What a write says that finds these marks, if no counter leaves its range. -/
def verdict (w : Write) (marks : Mark → Item × Int64 → Option Placed) :
    Except StoreFailure Bool :=
  match w.flaw? with
  | some why => .error (AccessFailure.refused why).toStore
  | none => .ok (w.turn?.elim true fun x => x.changes (marks x.mark x.key))

/-- Whether a write is about a mark. -/
def about (m : Mark) (key : Item × Int64) (w : Write) : Bool := (w.turns? m key).isSome

theorem about_eq_of_turn? (h : w.turn? = some x) :
    w.about m key = decide (x.mark = m ∧ x.key = key) := by
  rw [about, turns?_of_turn? h]
  by_cases hkey : x.mark = m ∧ x.key = key <;> simp [hkey]

/-- Other marks are left alone. -/
theorem lay_of_about_eq_false (h : w.about m key = false) (p : Option Placed) :
    w.lay m key p = p := by
  have hturns : w.turns? m key = none := by simpa [about] using h
  rw [lay, hturns]
  exact ite_self p

/-- What a write says is known from the mark that it is about. -/
theorem verdict_congr {marks marks' : Mark → Item × Int64 → Option Placed}
    (h : ∀ x, w.turn? = some x → marks x.mark x.key = marks' x.mark x.key) :
    w.verdict marks = w.verdict marks' := by
  have hchanges : (w.turn?.elim true fun x => x.changes (marks x.mark x.key))
      = w.turn?.elim true fun x => x.changes (marks' x.mark x.key) := by
    cases hx : w.turn? with
    | none => rfl
    | some x => exact congrArg x.changes (h x hx)
  rw [verdict, verdict, hchanges]

end Write

/-! ### One write -/

namespace Script

variable {now : Nat} {t t' : Tables} {m : Mark} {i : Item} {user folder : Int64} {b : Bool}

theorem laid_mark (hi : i.Exact)
    (h : onTables now (mark m i user folder).run t = some (.ok b, t')) :
    Tables.Laid ⟨m, (i, user), some folder⟩ t t' := by
  obtain ⟨t₁, hexec, ⟨-, rfl⟩ | ⟨-, u, hadd⟩⟩ := exists_execMark h
  · exact Tables.laid_execMark hi hexec
  · intro n key
    rw [Tables.mark?_eq_of_marks_eq (Tables.counted_add hi hadd).marks]
    exact Tables.laid_execMark hi hexec n key

theorem laid_unmark (h : onTables now (unmark m i user).run t = some (.ok b, t')) :
    Tables.Laid ⟨m, (i, user), none⟩ t t' := by
  obtain ⟨t₁, hexec, ⟨-, rfl⟩ | ⟨-, hsubtract⟩⟩ := exists_execUnmark h
  · exact Tables.laid_execUnmark hexec
  · intro n key
    rw [Tables.mark?_eq_of_marks_eq (Tables.counted_of_execSubtract_true hsubtract).marks]
    exact Tables.laid_execUnmark hexec n key

theorem laid_ofWrite {w : Write} {x : Turn} (hexact : ∀ a ∈ w.adjustments, a.item.Exact)
    (hx : w.turn? = some x) (h : onTables now (ofWrite w).run t = some (.ok b, t')) :
    Tables.Laid x t t' := by
  cases w with
  | read i => cases hx
  | readAll is => cases hx
  | like i user =>
    cases hx
    exact laid_mark (hexact _ List.mem_cons_self) h
  | unlike i user =>
    cases hx
    exact laid_unmark h
  | collect i user folder =>
    cases hx
    exact laid_mark (hexact _ List.mem_cons_self) h
  | uncollect i user folder =>
    cases hx
    exact laid_unmark h

end Script

namespace Outcome

/-- What a write has added to the counts. -/
def moves (o : Outcome) : List Adjustment :=
  match o.result with
  | .ok true => o.write.adjustments
  | _ => []

end Outcome

namespace Tables

variable {t t' : Tables} {w : Write} {r : Except StoreFailure Bool}

/-- Tables before and after a write that took no counter out of its range. -/
structure Followed (w : Write) (r : Except StoreFailure Bool) (t t' : Tables) : Prop where
  result : r = w.verdict t.mark?
  marks : ∀ m key, t'.mark? m key = w.lay m key (t.mark? m key)
  rows : ∀ i, Row.Moved i (Outcome.moves ⟨w, r⟩) (t.row i) (t'.row i)
  backed : t'.Backed

theorem Recorded.rows {b : Bool} (h : t.Recorded w b t') (i : Item) :
    Row.Moved i (Outcome.moves ⟨w, .ok b⟩) (t.row i) (t'.row i) := by
  cases h with
  | turn x t₁ hx hturned hcounted =>
    have hmoved := hcounted.moved i
    rw [hturned.row_eq] at hmoved
    cases b <;> exact hmoved
  | reads hx hb hcounted =>
    subst hb
    exact hcounted.moved i

/-- Reads leave all marks alone. -/
theorem Recorded.marks_eq {b : Bool} (h : t.Recorded w b t') (hx : w.turn? = none) (m : Mark) :
    t'.marks m = t.marks m := by
  cases h with
  | turn x t₁ hx' => rw [hx] at hx'; cases hx'
  | reads hx' hb hcounted => exact hcounted.marks m

/-- A write says whether the mark was not as it was wanted. -/
theorem Recorded.result_eq {b : Bool} (h : t.Recorded w b t') (hflaw : w.flaw? = none) :
    .ok b = w.verdict t.mark? := by
  rw [Write.verdict, hflaw]
  cases hx : w.turn? with
  | none =>
    cases h with
    | turn x t₁ hx' => rw [hx] at hx'; cases hx'
    | reads hx' hb =>
      rw [hb]
      rfl
  | some x =>
    have hchanged := h.changed_iff hx
    have hwanted := h.isSome_active? x.mark x.key
    rw [Write.turns?_of_turn? hx, if_pos ⟨rfl, rfl⟩] at hwanted
    rw [hwanted, Option.elim_some, isSome_active?_eq] at hchanged
    rw [Option.elim_some]
    congr 1
    rw [Bool.eq_iff_iff, hchanged, Turn.changes, bne_iff_ne, ne_comm]

end Tables

namespace Server

variable {v : Server} {t : Tables} {w : Write}

/-- **What one write does**, if it takes no counter out of its range. -/
theorem Calm.followed (h : v.Calm) (ht : v.tables = some t) (hbacked : t.Backed) (hw : w.Plain)
    (hrange : (v.serve (Script.ofWrite w)).1 ≠ .error overflow) :
    ∃ t', (v.serve (Script.ofWrite w)).2.tables = some t' ∧
      t.Followed w (v.serve (Script.ofWrite w)).1 t' := by
  have hresult := h.result_cases ht hbacked w
  rcases serve_cases (Script.whole_ofWrite w) v with
    ⟨why, faults, issued, hserve⟩ | ⟨b, tables, faults, issued, hserve, hdone⟩
  · rw [hserve] at hresult hrange ⊢
    rcases hresult with hover | ⟨refusal, hflaw, hwhy⟩ | ⟨-, b, hb⟩
    · exact absurd hover hrange
    · refine ⟨t, ht, ?_, fun m key => ?_, fun i => Row.Moved.refl, hbacked⟩
      · rw [Write.verdict, hflaw]
        exact hwhy
      · rw [Write.lay, hflaw]
        rfl
    · cases hb
  · obtain ⟨t', rfl, hscript⟩ := hdone h.draft t ht
    have hrecorded := Script.recorded_of_onTables hw.exact hw.length_lt hscript
    rw [hserve] at hresult ⊢
    rcases hresult with hover | ⟨refusal, -, hwhy⟩ | ⟨hflaw, -⟩
    · cases hover
    · cases hwhy
    · refine ⟨t', rfl, hrecorded.result_eq hflaw, fun m key => ?_, hrecorded.rows,
        hrecorded.backed hbacked⟩
      rw [Write.lay, hflaw]
      cases hx : w.turn? with
      | none =>
        rw [Write.turns?_of_turn?_eq_none hx, Tables.mark?_eq_of_marks_eq (hrecorded.marks_eq hx)]
        rfl
      | some x =>
        rw [Write.turns?_of_turn? hx, Script.laid_ofWrite hw.exact hx hscript]
        split <;> rfl

end Server

/-! ### Many writes -/

section Calls

variable {ι : Type} (calls : ι → Write) {m : Mark} {key : Item × Int64}

/-- What some calls, latest first, make of a mark. -/
def layAll (m : Mark) (key : Item × Int64) (p : Option Placed) (ns : List ι) : Option Placed :=
  ns.foldr (fun n => (calls n).lay m key) p

/-- What some calls, latest first, say that find these marks at first. -/
def verdicts (marks : Mark → Item × Int64 → Option Placed) :
    List ι → List (ι × Except StoreFailure Bool)
  | [] => []
  | n :: ns =>
    (n, (calls n).verdict fun m key => layAll calls m key (marks m key) ns) :: verdicts marks ns

/-- Only the calls about a mark count. -/
theorem layAll_filter (m : Mark) (key : Item × Int64) (p : Option Placed) (ns : List ι) :
    layAll calls m key p (ns.filter fun n => (calls n).about m key) = layAll calls m key p ns := by
  rw [layAll, List.foldr_filter, layAll]
  congr 1
  funext n q
  split
  · rfl
  · rename_i hn
    exact (Write.lay_of_about_eq_false (by simpa using hn) q).symm

variable {calls} {marks : Mark → Item × Int64 → Option Placed} {ns ns' : List ι}

/-- What calls about a mark say does not depend on the other calls. -/
theorem verdicts_filter (m : Mark) (key : Item × Int64) :
    (verdicts calls marks ns).filter (fun r => (calls r.1).about m key)
      = verdicts calls marks (ns.filter fun n => (calls n).about m key) := by
  induction ns with
  | nil => rfl
  | cons n ns ih =>
    rw [verdicts]
    by_cases hn : (calls n).about m key = true
    · rw [List.filter_cons, List.filter_cons, if_pos hn, if_pos hn, verdicts, ih]
      congr 2
      refine Write.verdict_congr fun x hx => ?_
      rw [Write.about_eq_of_turn? hx, decide_eq_true_eq] at hn
      obtain ⟨rfl, rfl⟩ := hn
      exact (layAll_filter calls x.mark x.key _ ns).symm
    · rw [List.filter_cons, List.filter_cons, if_neg hn, if_neg hn, ih]

/-- What reads say does not depend on anything. -/
theorem verdicts_filter_reads :
    (verdicts calls marks ns).filter (fun r => (calls r.1).turn?.isNone)
      = (ns.filter fun n => (calls n).turn?.isNone).map fun n => (n, (calls n).verdict marks) := by
  induction ns with
  | nil => rfl
  | cons n ns ih =>
    rw [verdicts]
    by_cases hn : (calls n).turn?.isNone = true
    · rw [List.filter_cons, List.filter_cons, if_pos hn, if_pos hn, List.map_cons, ih]
      congr 2
      refine Write.verdict_congr fun x hx => ?_
      rw [hx] at hn
      cases hn
    · rw [List.filter_cons, List.filter_cons, if_neg hn, if_neg hn, ih]

/-- **What calls say does not depend on the order**, but for that of calls about the same mark. -/
theorem verdicts_perm (hperm : ns.Perm ns')
    (horder : ∀ m key, (ns.filter fun n => (calls n).about m key)
      = ns'.filter fun n => (calls n).about m key) :
    (verdicts calls marks ns).Perm (verdicts calls marks ns') := by
  classical
  refine List.perm_iff_count.mpr fun r => ?_
  -- a call is found among those about its mark, or among the reads
  cases hx : (calls r.1).turn? with
  | none =>
    have hr : (calls r.1).turn?.isNone = true := by rw [hx]; rfl
    have hcount (ns : List ι) := List.count_filter (l := verdicts calls marks ns)
      (p := fun r => (calls r.1).turn?.isNone) hr
    rw [← hcount, ← hcount, verdicts_filter_reads, verdicts_filter_reads]
    exact ((hperm.filter _).map _).count_eq r
  | some x =>
    have hr : (calls r.1).about x.mark x.key = true := by
      rw [Write.about_eq_of_turn? hx]
      simp
    have hcount (ns : List ι) := List.count_filter (l := verdicts calls marks ns)
      (p := fun r => (calls r.1).about x.mark x.key) hr
    rw [← hcount, ← hcount, verdicts_filter, verdicts_filter, horder]

end Calls

namespace Tables

/-- Tables with the same values. -/
structure Alike (t t' : Tables) : Prop where
  rows : ∀ i, t.row i = t'.row i
  marks : ∀ m key, t.mark? m key = t'.mark? m key

end Tables

/-- Two rows that were moved by the same adjustments are the same. -/
theorem Row.Moved.unique {i : Item} {as : List Adjustment} {r r₁ r₂ : Option Counts}
    (h₁ : Row.Moved i as r r₁) (h₂ : Row.Moved i as r r₂) : r₁ = r₂ := by
  refine Row.eq_of_amount_eq ?_ fun k => ?_
  · rw [Bool.eq_iff_iff, h₁.isSome_iff, h₂.isSome_iff]
  · rw [h₁.amount, h₂.amount]

namespace Server

variable {ι : Type} {calls : ι → Write} {v : Server} {t : Tables} {ns ns' : List ι}

/-- What comes of calls, latest first. -/
def results (v : Server) (calls : ι → Write) : List ι → List (ι × Except StoreFailure Bool)
  | [] => []
  | n :: ns =>
    (n, ((v.after (ns.map calls)).serve (Script.ofWrite (calls n))).1) :: v.results calls ns

/-- All that calls have added to the counts. -/
def movesAll (calls : ι → Write) (rs : List (ι × Except StoreFailure Bool)) : List Adjustment :=
  rs.flatMap fun r => Outcome.moves ⟨calls r.1, r.2⟩

/-- What is known of the tables after some calls, latest first. -/
structure Settled (calls : ι → Write) (ns : List ι) (rs : List (ι × Except StoreFailure Bool))
    (t t' : Tables) : Prop where
  results : rs = verdicts calls t.mark? ns
  marks : ∀ m key, t'.mark? m key = layAll calls m key (t.mark? m key) ns
  rows : ∀ i, Row.Moved i (movesAll calls rs) (t.row i) (t'.row i)
  backed : t'.Backed

theorem calm_after (hv : v.Calm) (ws : List Write) : (v.after ws).Calm := by
  induction ws with
  | nil => exact hv
  | cons w ws ih => exact ih.serve (Script.ofWrite w)

/-- **What calls do one after another.** -/
theorem exists_settled (hv : v.Calm) (ht : v.tables = some t) (hbacked : t.Backed)
    (hplain : ∀ n ∈ ns, (calls n).Plain)
    (hrange : ∀ r ∈ v.results calls ns, r.2 ≠ .error overflow) :
    ∃ t', (v.after (ns.map calls)).tables = some t' ∧
      Settled calls ns (v.results calls ns) t t' := by
  induction ns with
  | nil => exact ⟨t, ht, rfl, fun _ _ => rfl, fun _ => Row.Moved.refl, hbacked⟩
  | cons n ns ih =>
    obtain ⟨t₁, ht₁, hsettled⟩ := ih (fun n hn => hplain n (List.mem_cons_of_mem _ hn))
      fun r hr => hrange r (List.mem_cons_of_mem _ hr)
    obtain ⟨t', ht', hfollowed⟩ := (calm_after hv (ns.map calls)).followed ht₁ hsettled.backed
      (hplain n List.mem_cons_self) (hrange _ List.mem_cons_self)
    refine ⟨t', ht', ?_, fun m key => ?_, fun i => ?_, hfollowed.backed⟩
    · rw [results, verdicts, hfollowed.result, ← hsettled.results]
      congr 2
      exact Write.verdict_congr fun x _ => hsettled.marks x.mark x.key
    · rw [hfollowed.marks, hsettled.marks]
      rfl
    · exact ((hsettled.rows i).append (hfollowed.rows i)).perm List.perm_append_comm

/-- **Users do not get in each other's way.** Some calls are made one after another, once in one
order and once in another that agrees about the writes on each mark. If no counter leaves its range
in either, every call has the same result in both, and the tables end up alike. -/
theorem order_independent (hv : v.Calm) (ht : v.tables = some t) (hbacked : t.Backed)
    (hplain : ∀ n ∈ ns, (calls n).Plain) (hperm : ns.Perm ns')
    (horder : ∀ m key, (ns.filter fun n => (calls n).about m key)
      = ns'.filter fun n => (calls n).about m key)
    (hrange : ∀ r ∈ v.results calls ns, r.2 ≠ .error overflow)
    (hrange' : ∀ r ∈ v.results calls ns', r.2 ≠ .error overflow) :
    (v.results calls ns).Perm (v.results calls ns') ∧
    ∃ t₁ t₂, (v.after (ns.map calls)).tables = some t₁ ∧
      (v.after (ns'.map calls)).tables = some t₂ ∧ t₁.Alike t₂ := by
  obtain ⟨t₁, ht₁, hsettled₁⟩ := exists_settled hv ht hbacked hplain hrange
  obtain ⟨t₂, ht₂, hsettled₂⟩ := exists_settled hv ht hbacked
    (fun n hn => hplain n (hperm.mem_iff.mpr hn)) hrange'
  have hresults : (v.results calls ns).Perm (v.results calls ns') := by
    rw [hsettled₁.results, hsettled₂.results]
    exact verdicts_perm hperm horder
  refine ⟨hresults, t₁, t₂, ht₁, ht₂, fun i => ?_, fun m key => ?_⟩
  · exact ((hsettled₁.rows i).perm (hresults.flatMap_right _)).unique (hsettled₂.rows i)
  · rw [hsettled₁.marks, hsettled₂.marks, ← layAll_filter calls m key _ ns, horder, layAll_filter]

/-- Two calls can be made in either order if they are not about the same mark. -/
theorem filter_pair_comm {calls : Bool → Write} {x y : Turn} (hx : (calls true).turn? = some x)
    (hy : (calls false).turn? = some y) (hkey : x.key ≠ y.key) (m : Mark) (key : Item × Int64) :
    ([true, false].filter fun n => (calls n).about m key)
      = [false, true].filter fun n => (calls n).about m key := by
  have hone : ¬ ((calls true).about m key = true ∧ (calls false).about m key = true) := by
    rw [Write.about_eq_of_turn? hx, Write.about_eq_of_turn? hy]
    simp only [decide_eq_true_eq]
    rintro ⟨⟨-, rfl⟩, -, h⟩
    exact hkey h.symm
  cases htrue : (calls true).about m key <;> cases hfalse : (calls false).about m key
  · simp [htrue, hfalse]
  · simp [htrue, hfalse]
  · simp [htrue, hfalse]
  · exact absurd ⟨htrue, hfalse⟩ hone

/-- One user likes the article, and another takes a like back. -/
def visits : Bool → Write
  | true => .like ⟨"article", 1⟩ 8
  | false => .unlike ⟨"article", 1⟩ 7

/-- A server with the article. -/
def library : Server := { tables := some lent }

/-- Both can be done in either order. -/
theorem order_independent_visits :
    (library.results visits [true, false]).Perm (library.results visits [false, true]) := by
  have hbacked : lent.Backed := by
    rintro (_ | _) key hactive
    · obtain ⟨row, hrow⟩ := Option.isSome_iff_exists.mp hactive
      obtain ⟨hget, -⟩ := Option.filter_eq_some_iff.mp hrow
      cases List.mem_singleton.mp (Table.mem_of_get?_eq_some hget)
      rfl
    · cases hactive
  have hkinds : ∀ n, ∀ a ∈ (visits n).adjustments, a.item.kind.length ≤ Statement.kindWidth := by
    decide +kernel
  have hlengths : ∀ n, (visits n).adjustments.length < 2 ^ 63 := by decide
  have hok : ∀ r ∈ library.results visits [true, false] ++ library.results visits [false, true],
      r.2.toOption.isSome := by
    decide +kernel
  have hrange : ∀ r ∈ library.results visits [true, false] ++ library.results visits [false, true],
      r.2 ≠ .error overflow := by
    intro r hr hover
    have hsome := hok r hr
    rw [hover] at hsome
    cases hsome
  exact (order_independent ⟨⟨rfl, rfl⟩, rfl⟩ rfl hbacked
    (fun n _ => ⟨fun a ha => Item.exact_of_length_le (hkinds n a ha), hlengths n⟩)
    (List.Perm.swap _ _ _) (filter_pair_comm rfl rfl (by decide))
    (fun r hr => hrange r (List.mem_append_left _ hr))
    fun r hr => hrange r (List.mem_append_right _ hr)).1

/-- The ragged article is liked, and so is the one that it shares a row with. -/
def lookalikes : Bool → Write
  | true => .like ragged 7
  | false => .like ⟨String.ofList (List.replicate 128 'x'), 1⟩ 7

/-- **Marks of different items may get in each other's way** if one is put on another item: the like
that comes first changes something, and the other one does not. -/
theorem exists_order_dependent :
    (∀ m key, ([true, false].filter fun n => (lookalikes n).about m key)
      = [false, true].filter fun n => (lookalikes n).about m key) ∧
    ¬ (({} : Server).results lookalikes [true, false]).Perm
      (({} : Server).results lookalikes [false, true]) := by
  constructor
  · refine filter_pair_comm rfl rfl fun h => ?_
    revert h
    decide +kernel
  · intro hperm
    have hsaid := hperm.map fun r => (r.1, r.2.toOption)
    revert hsaid
    decide +kernel

end Server

end Popularity
