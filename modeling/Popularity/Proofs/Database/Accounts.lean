import Popularity.Proofs.Database.Writes

/-!
# Counts and marks agree

The counts of an item are kept beside the marks on it, and no statement ever counts marks. Still the
two never drift apart: whatever is written, and whatever fails on the way, the count of likes moves
by one just when a like comes into force or out of force, and so for collections; and reads are
counted as often as they succeed. What marks there are is known from the writes alone: the last
write about a mark that succeeded says whether it is in force, and the last that put it in force
says in which folder.

## Main definitions

* `Tables.actives`, `Tables.drift` — the number of marks in force, and how far a count is off it
* `Server.after`, `Server.history` — a server after some writes, and what came of them
* `Tables.Accounts` — what is known of the tables from a history

## Main results

* `Tables.Turned.actives_eq`, `Tables.Recorded.drift_eq`
* `Tables.Accounts.recorded` — a write keeps the accounts
* `Server.after_accounts` — counts and marks never drift apart
-/

namespace Popularity

/-- By how much a turn that changes something moves the number of marks on an item. -/
def Turn.shift (x : Turn) (m : Mark) (i : Item) : Int :=
  if x.mark = m ∧ x.key.1 = i then if x.folder.isSome then 1 else -1 else 0

namespace Tables

variable {t t' : Tables} {b : Bool} {x : Turn} {w : Write}

/-! ### What a turn does -/

theorem Turned.counts_eq (h : t.Turned x b t') : t'.counts = t.counts := by
  cases h with
  | still h => rfl
  | put row h standing folder made => exact counts_putMark

theorem Turned.row_eq (h : t.Turned x b t') (i : Item) : t'.row i = t.row i := by
  rw [row, h.counts_eq, row]

theorem Counted.tables_grown {as : List Adjustment} (h : t.Counted as t') : t.Grown t' := by
  refine ⟨h.grown, fun m => ?_⟩
  rw [h.marks]
  exact Table.Grown.refl

theorem Turned.grown (h : t.Turned x b t') : t.Grown t' := by
  cases h with
  | still h => exact Grown.refl
  | put row h standing folder made =>
    refine ⟨?_, fun m => ?_⟩
    · rw [counts_putMark]
      exact Table.Grown.refl
    · rw [marks_putMark]
      split
      next hm =>
        subst hm
        exact Table.grown_put made
      next => exact Table.Grown.refl

/-- After a turn the mark is as it was wanted, and no other mark is touched. -/
theorem Turned.isSome_active? (h : t.Turned x b t') (m : Mark) (key : Item × Int64) :
    (t'.active? m key).isSome
      = if x.mark = m ∧ x.key = key then x.folder.isSome else (t.active? m key).isSome := by
  cases h with
  | still h =>
    split
    next hkey =>
      obtain ⟨rfl, rfl⟩ := hkey
      exact h
    next => rfl
  | put row h standing folder made =>
    rw [active?_putMark]
    by_cases hkey : x.mark = m ∧ x.key = key
    · obtain ⟨rfl, rfl⟩ := hkey
      rw [if_pos ⟨rfl, rfl⟩, if_pos ⟨rfl, rfl⟩]
      cases hfolder : x.folder.isSome <;> simp [standing, hfolder]
    · rw [if_neg fun hk => hkey ⟨hk.1.symm, hk.2.symm⟩, if_neg hkey]

/-- A turn changes something just if the mark was not so already. -/
theorem Turned.changed_iff (h : t.Turned x b t') :
    b = true ↔ (t'.active? x.mark x.key).isSome ≠ (t.active? x.mark x.key).isSome := by
  rw [h.isSome_active?, if_pos ⟨rfl, rfl⟩]
  cases h with
  | still h => simp [h]
  | put row h standing folder made =>
    rw [h]
    cases x.folder.isSome <;> decide

/-- A mark that is in force after a turn was put by it, or it was in force and is not concerned. -/
theorem Turned.folder_eq (h : t.Turned x b t') {m : Mark} {key : Item × Int64}
    {row : Stamped Placed} (hrow : t'.active? m key = some row) :
    (b = true ∧ x.mark = m ∧ x.key = key) ∧ x.folder = some row.value.folder ∨
      ¬(b = true ∧ x.mark = m ∧ x.key = key) ∧ t.active? m key = some row := by
  cases h with
  | still h => exact .inr ⟨nofun, hrow⟩
  | put row' h standing folder made =>
    rw [active?_putMark] at hrow
    split at hrow
    next hkey =>
      obtain ⟨rfl, rfl⟩ := hkey
      obtain ⟨heq, hactive⟩ := Option.filter_eq_some_iff.mp hrow
      cases heq
      refine .inl ⟨⟨rfl, rfl, rfl⟩, ?_⟩
      cases hfolder : x.folder with
      | none => simp [standing, hfolder] at hactive
      | some f => rw [folder f hfolder]
    next hkey => exact .inr ⟨fun hk => hkey ⟨hk.2.1.symm, hk.2.2.symm⟩, hrow⟩

/-! ### Marks in force -/

/-- The number of marks of one sort that are in force on an item. -/
def actives (t : Tables) (m : Mark) (i : Item) : Nat :=
  (t.marks m).countP fun r => r.1.1 = i ∧ r.2.value.standing = .active

theorem Counted.actives_eq {as : List Adjustment} (h : t.Counted as t') (m : Mark) (i : Item) :
    t'.actives m i = t.actives m i := by
  rw [actives, h.marks, actives]

/-- By how much the count of an item differs from the number of its marks. -/
def drift (t : Tables) (m : Mark) (i : Item) : Int :=
  Row.amount (t.row i) m.counter - t.actives m i

/-- Every mark in force is on an item that has counts. -/
def Backed (t : Tables) : Prop := ∀ m key, (t.active? m key).isSome → (t.row key.1).isSome

theorem actives_putMark_of_ne {m n : Mark} (hm : m ≠ n) (t : Tables) (key : Item × Int64)
    (row : Stamped Placed) (i : Item) : (t.putMark m key row).actives n i = t.actives n i := by
  rw [actives, marks_putMark, if_neg (Ne.symm hm), actives]

/-- To put a row makes its mark count if it is in force, and the one that it replaces no more. -/
theorem actives_putMark (t : Tables) (m : Mark) (key : Item × Int64) (row : Stamped Placed)
    (i : Item) :
    (t.putMark m key row).actives m i + (if key.1 = i ∧ (t.active? m key).isSome then 1 else 0)
      = t.actives m i + if key.1 = i ∧ row.value.standing = .active then 1 else 0 := by
  have hcount := Table.countP_put
    (fun r => decide (r.1.1 = i ∧ r.2.value.standing = .active)) (t.marks m) key row
  have hold : (((t.marks m).get? key).elim 0 fun old =>
        if decide (key.1 = i ∧ old.value.standing = .active) = true then 1 else 0)
      = if key.1 = i ∧ (t.active? m key).isSome then 1 else 0 := by
    unfold active?
    cases (t.marks m).get? key with
    | none => simp
    | some old => by_cases hactive : old.value.standing = .active <;> simp [hactive]
  rw [hold] at hcount
  rw [actives, marks_putMark, if_pos rfl, actives]
  simpa only [decide_eq_true_eq] using hcount

theorem Turned.actives_eq (h : t.Turned x b t') (m : Mark) (i : Item) :
    (t'.actives m i : Int) = t.actives m i + if b then x.shift m i else 0 := by
  cases h with
  | still h => simp
  | put row h standing folder made =>
    rw [if_pos rfl, Turn.shift]
    by_cases hm : x.mark = m
    · subst hm
      have hcount := actives_putMark t x.mark x.key row i
      have hnew : row.value.standing = .active ↔ x.folder.isSome := by
        rw [standing]
        cases x.folder.isSome <;> decide
      rw [h] at hcount
      by_cases hi : x.key.1 = i
      · rw [if_pos ⟨rfl, hi⟩]
        cases hfolder : x.folder.isSome <;> simp [hi, hnew, hfolder] at hcount ⊢ <;> omega
      · rw [if_neg fun hk => hi hk.2]
        simp only [hi, false_and, if_false] at hcount
        omega
    · rw [if_neg fun hk => hm hk.1, actives_putMark_of_ne hm, Int.add_zero]

end Tables

/-! ### What a write does -/

/-- The tables can hold what a write is about: its items are stored under their own kinds, and it
has no more reads than can be counted. -/
structure Write.Plain (w : Write) : Prop where
  exact : ∀ a ∈ w.adjustments, a.item.Exact
  length_lt : w.adjustments.length < 2 ^ 63

namespace Write

variable {w : Write} {x : Turn}

/-- The turn of a write if it is about this mark. -/
def turns? (w : Write) (m : Mark) (key : Item × Int64) : Option Turn :=
  w.turn?.filter fun x => x.mark = m ∧ x.key = key

/-- How often a write reads an item. -/
def reads (i : Item) : Write → Nat
  | .read j => if j = i then 1 else 0
  | .readAll is => is.count i
  | _ => 0

theorem turns?_of_turn? (h : w.turn? = some x) (m : Mark) (key : Item × Int64) :
    w.turns? m key = if x.mark = m ∧ x.key = key then some x else none := by
  rw [turns?, h, Option.filter_some]
  simp only [decide_eq_true_eq]

theorem turns?_of_turn?_eq_none (h : w.turn? = none) (m : Mark) (key : Item × Int64) :
    w.turns? m key = none := by
  rw [turns?, h]
  rfl

theorem adjustments_of_turn? (h : w.turn? = some x) :
    w.adjustments = [⟨x.key.1, x.mark.counter, if x.folder.isSome then 1 else -1⟩] := by
  cases w <;> cases h <;> rfl

/-- A write moves the count of a mark as it moves the number of marks. -/
theorem total_counter_of_turn? (h : w.turn? = some x) (m : Mark) (i : Item) :
    Adjustment.total i m.counter w.adjustments = x.shift m i := by
  have hcounter : x.mark.counter = m.counter ↔ x.mark = m := by
    cases x.mark <;> cases m <;> decide
  have hby : ((if x.folder.isSome then 1 else -1 : Int64)).toInt
      = if x.folder.isSome then 1 else -1 := by
    cases x.folder.isSome <;> rfl
  rw [adjustments_of_turn? h, Adjustment.total_cons, Adjustment.total_nil, Int.add_zero, hby,
    Turn.shift]
  simp only [hcounter, and_comm]

/-- A write that turns no mark is about reads. -/
theorem exists_readAll_of_turn?_eq_none (h : w.turn? = none) :
    ∃ is, w.adjustments = (readAll is).adjustments ∧ ∀ i, w.reads i = is.count i := by
  cases w with
  | read i => exact ⟨[i], rfl, fun j => by by_cases hj : i = j <;> simp [reads, hj]⟩
  | readAll is => exact ⟨is, rfl, fun _ => rfl⟩
  | _ => cases h

theorem reads_of_turn? (h : w.turn? = some x) (i : Item) : w.reads i = 0 := by
  cases w <;> first | rfl | cases h

end Write

/-! ### What a write that succeeds does -/

namespace Tables

variable {t t' : Tables} {b : Bool} {x : Turn} {w : Write}

theorem Recorded.grown (h : t.Recorded w b t') : t.Grown t' := by
  cases h with
  | turn x t₁ hx hturned hcounted => exact hturned.grown.trans hcounted.tables_grown
  | reads hx hb hcounted => exact hcounted.tables_grown

/-- A write that succeeds leaves a mark as it was wanted. -/
theorem Recorded.isSome_active? (h : t.Recorded w b t') (m : Mark) (key : Item × Int64) :
    (t'.active? m key).isSome
      = (w.turns? m key).elim (t.active? m key).isSome (·.folder.isSome) := by
  cases h with
  | turn x t₁ hx hturned hcounted =>
    rw [hcounted.active?, hturned.isSome_active?, Write.turns?_of_turn? hx]
    split <;> rfl
  | reads hx hb hcounted =>
    rw [hcounted.active?, Write.turns?_of_turn?_eq_none hx]
    rfl

/-- A write says that it has changed something just if it has. -/
theorem Recorded.changed_iff (h : t.Recorded w b t') (hx : w.turn? = some x) :
    b = true ↔ (t'.active? x.mark x.key).isSome ≠ (t.active? x.mark x.key).isSome := by
  cases h with
  | turn x' t₁ hx' hturned hcounted =>
    obtain rfl : x' = x := Option.some.inj (hx'.symm.trans hx)
    rw [hcounted.active?]
    exact hturned.changed_iff
  | reads hx' hb hcounted =>
    rw [hx'] at hx
    cases hx

theorem Recorded.folder_eq (h : t.Recorded w b t') {m : Mark} {key : Item × Int64}
    {row : Stamped Placed} (hrow : t'.active? m key = some row) :
    some row.value.folder = (if b then (w.turns? m key).bind (·.folder) else none).or
      ((t.active? m key).map (·.value.folder)) := by
  cases h with
  | turn x t₁ hx hturned hcounted =>
    rw [hcounted.active?] at hrow
    rw [Write.turns?_of_turn? hx]
    rcases hturned.folder_eq hrow with ⟨⟨rfl, hkey⟩, hfolder⟩ | ⟨hkey, hold⟩
    · rw [if_pos rfl, if_pos hkey, Option.bind_some, hfolder]
      rfl
    · rw [hold]
      cases b with
      | false => rfl
      | true =>
        rw [if_pos rfl, if_neg fun hk => hkey ⟨rfl, hk⟩]
        rfl
  | reads hx hb hcounted =>
    rw [hcounted.active?] at hrow
    rw [Write.turns?_of_turn?_eq_none hx, hrow]
    cases b <;> rfl

/-- **Counts and marks move together.** -/
theorem Recorded.drift_eq (h : t.Recorded w b t') (m : Mark) (i : Item) :
    t'.drift m i = t.drift m i := by
  unfold drift
  cases h with
  | turn x t₁ hx hturned hcounted =>
    rw [(hcounted.moved i).amount, hturned.row_eq, hcounted.actives_eq, hturned.actives_eq]
    cases b with
    | false => simp
    | true =>
      rw [if_pos rfl, if_pos rfl, Write.total_counter_of_turn? hx]
      omega
  | reads hx hb hcounted =>
    obtain ⟨is, his, -⟩ := Write.exists_readAll_of_turn?_eq_none hx
    rw [(hcounted.moved i).amount, hcounted.actives_eq, his, Script.total_reads, if_neg,
      Int.add_zero]
    cases m <;> nofun

theorem Recorded.reads_eq (h : t.Recorded w b t') (i : Item) :
    Row.amount (t'.row i) .reads = Row.amount (t.row i) .reads + w.reads i := by
  cases h with
  | turn x t₁ hx hturned hcounted =>
    rw [(hcounted.moved i).amount, hturned.row_eq, Write.reads_of_turn? hx]
    cases b with
    | false => rfl
    | true =>
      have hcounter : x.mark.counter ≠ .reads := by cases x.mark <;> nofun
      rw [if_pos rfl, Write.adjustments_of_turn? hx, Adjustment.total_cons,
        if_neg fun hk => hcounter hk.2]
      rfl
  | reads hx hb hcounted =>
    obtain ⟨is, his, hreads⟩ := Write.exists_readAll_of_turn?_eq_none hx
    rw [(hcounted.moved i).amount, his, Script.total_reads, if_pos rfl, hreads]

/-- A mark that comes into force makes the counts of its item. -/
theorem Recorded.backed (h : t.Recorded w b t') (hbacked : t.Backed) : t'.Backed := by
  intro m key hactive
  cases h with
  | turn x t₁ hx hturned hcounted =>
    rw [hcounted.active?] at hactive
    rw [(hcounted.moved key.1).isSome_iff, hturned.row_eq]
    cases hturned with
    | still h => exact .inl (hbacked m key hactive)
    | put row h standing folder made =>
      by_cases hkey : x.mark = m ∧ x.key = key
      · obtain ⟨rfl, rfl⟩ := hkey
        right
        rw [if_pos rfl, Write.adjustments_of_turn? hx]
        exact ⟨_, List.mem_cons_self, rfl⟩
      · left
        rw [active?_putMark, if_neg fun hk => hkey ⟨hk.1.symm, hk.2.symm⟩] at hactive
        exact hbacked m key hactive
  | reads hx hb hcounted =>
    rw [hcounted.active?] at hactive
    exact (hcounted.moved key.1).isSome_iff.mpr (.inl (hbacked m key hactive))

end Tables

/-! ### Histories -/

/-- A write and what came of it. -/
structure Outcome where
  write : Write
  result : Except StoreFailure Bool

namespace Outcome

/-- What a write that has succeeded wanted of a mark. -/
def turned? (m : Mark) (key : Item × Int64) (o : Outcome) : Option Turn :=
  if o.result.toBool then o.write.turns? m key else none

/-- The folder in which a write has put a mark that was not in force. -/
def placed? (m : Mark) (key : Item × Int64) (o : Outcome) : Option Int64 :=
  match o.result with
  | .ok true => (o.write.turns? m key).bind (·.folder)
  | _ => none

/-- How often an item was read. -/
def reads (i : Item) (o : Outcome) : Nat := if o.result.toBool then o.write.reads i else 0

/-- How often an item was read in all. -/
def allReads (i : Item) : List Outcome → Nat
  | [] => 0
  | o :: h => o.reads i + allReads i h

end Outcome

/-- What is known of the tables after some writes, latest first. -/
structure Tables.Accounts (t : Tables) (h : List Outcome) (t' : Tables) : Prop where
  /-- A mark is in force if the latest write about it that has succeeded put it in force, or if
  there was none and it was in force before. -/
  active : ∀ m key, (t'.active? m key).isSome
    = (h.findSome? (·.turned? m key)).elim (t.active? m key).isSome (·.folder.isSome)
  /-- A mark in force is in the folder of the latest write that has brought it into force. -/
  folder : ∀ m key row, t'.active? m key = some row → some row.value.folder
    = (h.findSome? (·.placed? m key)).or ((t.active? m key).map (·.value.folder))
  /-- Counts and marks never drift apart. -/
  drift : ∀ m i, t'.drift m i = t.drift m i
  /-- Every read that has succeeded is counted. -/
  reads : ∀ i,
    Row.amount (t'.row i) .reads = Row.amount (t.row i) .reads + Outcome.allReads i h
  /-- No row is lost. -/
  grown : t.Grown t'
  backed : t.Backed → t'.Backed

namespace Tables.Accounts

variable {t t' t'' : Tables} {h : List Outcome} {w : Write} {b : Bool}

theorem refl : t.Accounts [] t where
  active _ _ := rfl
  folder m key row hrow := by
    rw [hrow]
    rfl
  drift _ _ := rfl
  reads i := (Int.add_zero _).symm
  grown := Grown.refl
  backed := id

/-- A write that fails is no matter. -/
theorem failed {why : StoreFailure} (ht : t.Accounts h t') :
    t.Accounts (⟨w, .error why⟩ :: h) t' where
  active := ht.active
  folder := ht.folder
  drift := ht.drift
  reads i := by
    have hreads : (⟨w, .error why⟩ : Outcome).reads i = 0 := rfl
    rw [ht.reads, Outcome.allReads, hreads, Nat.zero_add]
  grown := ht.grown
  backed := ht.backed

/-- **A write that succeeds keeps the accounts.** -/
theorem recorded (ht : t.Accounts h t') (hw : t'.Recorded w b t'') :
    t.Accounts (⟨w, .ok b⟩ :: h) t'' where
  active m key := by
    have hturned : (⟨w, .ok b⟩ : Outcome).turned? m key = w.turns? m key := rfl
    rw [hw.isSome_active?, ht.active, List.findSome?_cons, hturned]
    cases w.turns? m key <;> rfl
  folder m key row hrow := by
    have hplaced : (⟨w, .ok b⟩ : Outcome).placed? m key
        = if b then (w.turns? m key).bind (·.folder) else none := by
      cases b <;> rfl
    have hfolder := hw.folder_eq hrow
    rw [List.findSome?_cons, hplaced]
    cases hnow : (if b then (w.turns? m key).bind (·.folder) else none) with
    | some f =>
      rw [hnow] at hfolder
      exact hfolder
    | none =>
      -- the write has not put the mark, so the mark is as it was found
      rw [hnow, Option.none_or, eq_comm, Option.map_eq_some_iff] at hfolder
      obtain ⟨old, hold, heq⟩ := hfolder
      rw [← heq]
      exact ht.folder m key old hold
  drift m i := (hw.drift_eq m i).trans (ht.drift m i)
  reads i := by
    have hreads : (⟨w, .ok b⟩ : Outcome).reads i = w.reads i := rfl
    rw [hw.reads_eq, ht.reads, Outcome.allReads, hreads]
    omega
  grown := ht.grown.trans hw.grown
  backed hbacked := hw.backed (ht.backed hbacked)

end Tables.Accounts

/-! ### Servers -/

namespace Server

variable {v : Server} {t t' : Tables} {w : Write} {ws : List Write}

/-- The server after some writes, latest first. -/
def after (v : Server) : List Write → Server
  | [] => v
  | w :: ws => ((v.after ws).serve (Script.ofWrite w)).2

/-- What came of some writes, latest first. -/
def history (v : Server) : List Write → List Outcome
  | [] => []
  | w :: ws => ⟨w, ((v.after ws).serve (Script.ofWrite w)).1⟩ :: v.history ws

/-- Whether a mark is in force. -/
def holds (v : Server) (m : Mark) (key : Item × Int64) : Bool :=
  (v.tables.bind (·.active? m key)).isSome

/-- What comes of one more write: it fails and nothing is changed, or it is recorded. -/
theorem serve_recorded (hw : w.Plain) (hdraft : v.draft = none) (ht : v.tables = some t) :
    (v.serve (Script.ofWrite w)).2.draft = none ∧
      ((∃ why, (v.serve (Script.ofWrite w)).1 = .error why ∧
          (v.serve (Script.ofWrite w)).2.tables = some t) ∨
        ∃ b t', (v.serve (Script.ofWrite w)).1 = .ok b ∧
          (v.serve (Script.ofWrite w)).2.tables = some t' ∧ t.Recorded w b t') := by
  rcases serve_cases (Script.whole_ofWrite w) v with
    ⟨why, faults, issued, hserve⟩ | ⟨b, tables, faults, issued, hserve, hdone⟩
  · rw [hserve]
    exact ⟨rfl, .inl ⟨why, rfl, ht⟩⟩
  · rw [hserve]
    obtain ⟨t', rfl, hscript⟩ := hdone hdraft t ht
    exact ⟨rfl, .inr ⟨b, t', rfl, rfl, Script.recorded_of_onTables hw.exact hw.length_lt hscript⟩⟩

theorem exists_accounts (hws : ∀ w ∈ ws, w.Plain) (hdraft : v.draft = none)
    (ht : v.tables = some t) :
    (v.after ws).draft = none ∧
      ∃ t', (v.after ws).tables = some t' ∧ t.Accounts (v.history ws) t' := by
  induction ws with
  | nil => exact ⟨hdraft, t, ht, Tables.Accounts.refl⟩
  | cons w ws ih =>
    obtain ⟨hdraft', t', ht', haccounts⟩ := ih fun w hw => hws w (List.mem_cons_of_mem _ hw)
    obtain ⟨hlast, hserve⟩ := serve_recorded (hws w List.mem_cons_self) hdraft' ht'
    refine ⟨hlast, ?_⟩
    rw [history]
    rcases hserve with ⟨why, hwhy, htables⟩ | ⟨b, t'', hb, htables, hrecorded⟩
    · rw [hwhy]
      exact ⟨t', htables, haccounts.failed⟩
    · rw [hb]
      exact ⟨t'', htables, haccounts.recorded hrecorded⟩

/-- **Counts and marks never drift apart.** Whatever is written, in whatever order, and whatever the
server refuses on the way: a write about a mark says that it has changed something just if it has,
and the accounts are kept. -/
theorem after_accounts (v : Server) (t : Tables) (ws : List Write) (hws : ∀ w ∈ ws, w.Plain)
    (hdraft : v.draft = none) (ht : v.tables = some t) :
    (∀ newer w older x, ws = newer ++ w :: older → w.turn? = some x →
      (((v.after older).serve (Script.ofWrite w)).1 = .ok true ↔
        (v.after (w :: older)).holds x.mark x.key ≠ (v.after older).holds x.mark x.key)) ∧
    ∃ t', (v.after ws).tables = some t' ∧ t.Accounts (v.history ws) t' := by
  refine ⟨?_, (exists_accounts hws hdraft ht).2⟩
  rintro newer w older x rfl hx
  obtain ⟨hdraft', t', ht', -⟩ := exists_accounts
    (fun w hw => hws w (List.mem_append_right _ (List.mem_cons_of_mem _ hw))) hdraft ht
  obtain ⟨-, hserve⟩ := serve_recorded
    (hws w (List.mem_append_right _ List.mem_cons_self)) hdraft' ht'
  rw [holds, holds, after, ht']
  rcases hserve with ⟨why, hwhy, htables⟩ | ⟨b, t'', hb, htables, hrecorded⟩
  · rw [hwhy, htables]
    exact ⟨nofun, fun h => absurd rfl h⟩
  · rw [hb, htables]
    exact (by simp : (Except.ok b : Except StoreFailure Bool) = .ok true ↔ b = true).trans
      (hrecorded.changed_iff hx)

/-- An article with a like, and two more likes on its count than there are. -/
def lent : Tables where
  counts := [(⟨"article", 1⟩, .new ⟨5, 3, 0⟩ 0)]
  likes := [((⟨"article", 1⟩, 7), .new ⟨0, .active⟩ 0)]

/-- A server that will refuse to take one from a count. -/
def lender : Server where
  tables := some lent
  faults := [⟨"UPDATE interactives", 0, ⟨some "57014", "canceled", none⟩⟩]

/-- A user likes the article twice, another fails to take the like back, and a third moves it from
one folder to another. -/
def loans : List Write :=
  [.collect ⟨"article", 1⟩ 9 2, .uncollect ⟨"article", 1⟩ 9 0, .collect ⟨"article", 1⟩ 9 1,
    .unlike ⟨"article", 1⟩ 7, .like ⟨"article", 1⟩ 8, .like ⟨"article", 1⟩ 8]

/-- The count stays as far from the likes as it was, the like that could not be taken back is in
force, and the article is in the folder in which it was put last. -/
theorem after_accounts_loans :
    ∃ t', (lender.after loans).tables = some t' ∧ t'.drift .like ⟨"article", 1⟩ = 2 ∧
      (t'.active? .like (⟨"article", 1⟩, 7)).isSome ∧
      (t'.active? .collection (⟨"article", 1⟩, 9)).map (·.value.folder) = some 2 := by
  have hkinds : ∀ w ∈ loans, ∀ a ∈ w.adjustments, a.item.kind.length ≤ Statement.kindWidth := by
    decide +kernel
  have hlengths : ∀ w ∈ loans, w.adjustments.length < 2 ^ 63 := by decide
  have hplain : ∀ w ∈ loans, w.Plain := fun w hw =>
    ⟨fun a ha => Item.exact_of_length_le (hkinds w hw a ha), hlengths w hw⟩
  obtain ⟨-, t', ht', haccounts⟩ := after_accounts lender lent loans hplain rfl rfl
  refine ⟨t', ht', ?_, ?_, ?_⟩
  · rw [haccounts.drift]
    decide
  · rw [haccounts.active]
    decide +kernel
  · have hactive : (t'.active? .collection (⟨"article", 1⟩, 9)).isSome := by
      rw [haccounts.active]
      decide +kernel
    obtain ⟨row, hrow⟩ := Option.isSome_iff_exists.mp hactive
    rw [hrow, Option.map_some, haccounts.folder _ _ _ hrow]
    decide +kernel

/-- An article whose kind is too long by a blank. -/
def ragged : Item := ⟨String.ofList (List.replicate 128 'x' ++ [' ']), 1⟩

/-- Such an article is not plain: what is written about it is put on another one. It is said to be
liked, but the like is not found, and cannot be taken back; and its reads are not its own. -/
theorem like_ragged :
    ((({} : Server).serve (Script.ofWrite (.like ragged 7))).1.toOption = some true ∧
      (({} : Server).after [.like ragged 7]).holds .like (ragged, 7) = false ∧
      ((({} : Server).after [.like ragged 7]).serve
        (Script.ofWrite (.unlike ragged 7))).1.toOption = some false) ∧
    (({} : Server).serve (Script.ofWrite (.read ragged))).1.toOption = some true ∧
      (({} : Server).after [.read ragged]).tables.bind (·.row ragged) = none := by
  decide +kernel

end Server

end Popularity
