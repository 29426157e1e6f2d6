import Popularity.Proofs.Database.Rows

/-!
# What a write does to the tables

A write that succeeds has turned a mark and moved the counters of its item, or it has found that the
mark is so already and has moved nothing, or it has counted reads. Reads that come in a list are put
together first, and putting them together loses none of them.

## Main definitions

* `Write.turn?` — what a write wants of a mark
* `Tables.Recorded` — tables before and after a write that has succeeded

## Main results

* `Script.onTables_mark`, `Script.onTables_unmark`
* `Script.total_merged` — a list of reads and its items put together come to the same
* `Script.recorded_of_onTables` — what a write that succeeds has done
-/

namespace Popularity

/-! ### Lists -/

/-- What is left without repetitions has none. -/
theorem nodup_eraseDups {α : Type} [BEq α] [LawfulBEq α] (as : List α) : as.eraseDups.Nodup := by
  match as with
  | [] => exact List.nodup_nil
  | a :: as =>
    rw [List.eraseDups_cons]
    refine List.nodup_cons.mpr ⟨?_, nodup_eraseDups _⟩
    simp [List.mem_eraseDups]
termination_by as.length
decreasing_by
  exact Nat.lt_succ_of_le (List.length_filter_le _ _)

/-! ### Scripts -/

namespace Script

variable {α β : Type} {t t' t₁ : Tables} {m : Mark} {i : Item} {user folder : Int64} {now : Nat}
variable {b : Bool}

/-- What was done to the tables was done one statement after another. -/
theorem onTables_ask_eq_some {s : Statement}
    {next : s.Answer → Dialogue Statement Statement.Answer α} {r : α × Tables}
    (h : onTables now (.ask s next) t = some r) :
    ∃ a t₁, s.effect now t = .ok (a, t₁) ∧ onTables now (next a) t₁ = some r := by
  rw [onTables] at h
  cases he : s.exec now t with
  | error why =>
    rw [he] at h
    cases h
  | ok p =>
    rw [he] at h
    refine ⟨p.1, p.2, ?_, h⟩
    unfold Statement.exec at he
    split at he
    · cases he
    · exact he

/-- To begin and to commit is nothing to the tables. -/
theorem onTables_transaction (now : Nat) (body : Script α) (t : Tables) :
    onTables now (transaction body).run t = onTables now body.run t := by
  rw [run_transaction, onTables_ask (s := .begin_) rfl, onTables_bind]
  rcases onTables now body.run t with _ | ⟨_ | a, t'⟩ <;> rfl

/-- What a script that puts a mark does: the mark, and then the count if anything has changed. -/
theorem exists_execMark (h : onTables now (mark m i user folder).run t = some (.ok b, t')) :
    ∃ t₁, Statement.execMark now m i user folder t = .ok (b, t₁) ∧
      (b = false ∧ t' = t₁ ∨
        b = true ∧ ∃ u, (Statement.add i m.counter 1).effect now t₁ = .ok (u, t')) := by
  rw [mark, onTables_transaction, run_send_bind] at h
  obtain ⟨changed, t₁, hmark, hnext⟩ := onTables_ask_eq_some h
  cases changed with
  | false =>
    cases hnext
    exact ⟨_, hmark, .inl ⟨rfl, rfl⟩⟩
  | true =>
    obtain ⟨u, t₂, hadd, hlast⟩ := onTables_ask_eq_some hnext
    cases hlast
    exact ⟨t₁, hmark, .inr ⟨rfl, u, hadd⟩⟩

/-- What a script that takes a mark back does. -/
theorem exists_execUnmark (h : onTables now (unmark m i user).run t = some (.ok b, t')) :
    ∃ t₁, Statement.execUnmark now m i user t = (b, t₁) ∧
      (b = false ∧ t' = t₁ ∨
        b = true ∧ Statement.execSubtract now i m.counter t₁ = .ok (true, t')) := by
  rw [unmark, onTables_transaction, run_send_bind] at h
  obtain ⟨changed, t₁, hunmark, hnext⟩ := onTables_ask_eq_some h
  cases changed with
  | false =>
    cases hnext
    exact ⟨_, Except.ok.inj hunmark, .inl ⟨rfl, rfl⟩⟩
  | true =>
    obtain ⟨found, t₂, hsubtract, hlast⟩ := onTables_ask_eq_some hnext
    cases found with
    | false =>
      -- the script has given up
      cases hlast
    | true =>
      cases hlast
      exact ⟨t₁, Except.ok.inj hunmark, .inr ⟨rfl, hsubtract⟩⟩

theorem onTables_mark (hi : i.Exact)
    (h : onTables now (mark m i user folder).run t = some (.ok b, t')) :
    ∃ t₁, Tables.Turned ⟨m, (i, user), some folder⟩ b t t₁ ∧
      t₁.Counted (if b then [⟨i, m.counter, 1⟩] else []) t' := by
  obtain ⟨t₁, hmark, ⟨rfl, rfl⟩ | ⟨rfl, u, hadd⟩⟩ := exists_execMark h
  · exact ⟨_, Tables.turned_execMark hi hmark, Tables.Counted.refl⟩
  · exact ⟨t₁, Tables.turned_execMark hi hmark, Tables.counted_add hi hadd⟩

theorem onTables_unmark (h : onTables now (unmark m i user).run t = some (.ok b, t')) :
    ∃ t₁, Tables.Turned ⟨m, (i, user), none⟩ b t t₁ ∧
      t₁.Counted (if b then [⟨i, m.counter, -1⟩] else []) t' := by
  obtain ⟨t₁, hunmark, ⟨rfl, rfl⟩ | ⟨rfl, hsubtract⟩⟩ := exists_execUnmark h
  · exact ⟨_, Tables.turned_execUnmark hunmark, Tables.Counted.refl⟩
  · exact ⟨t₁, Tables.turned_execUnmark hunmark, Tables.counted_of_execSubtract_true hsubtract⟩

/-! ### Reads -/

theorem onTables_addAll {l : List (Item × Int64)} {u : Unit} (hl : ∀ r ∈ l, r.1.Exact)
    (h : onTables now (l.forM fun r => send (.add r.1 .reads r.2)).run t = some (.ok u, t')) :
    t.Counted (l.map fun r => ⟨r.1, .reads, r.2⟩) t' := by
  induction l generalizing t with
  | nil =>
    cases h
    exact Tables.Counted.refl
  | cons r l ih =>
    obtain ⟨_, t₁, hadd, hnext⟩ := onTables_ask_eq_some h
    have hfirst := Tables.counted_add (hl r List.mem_cons_self) hadd
    exact hfirst.append (ih (fun r hr => hl r (List.mem_cons_of_mem _ hr)) hnext)

/-- Distinct items are counted each for itself. -/
theorem total_of_nodup {is : List Item} (h : is.Nodup) (n : Item → Int64) (j : Item) (k : Counter) :
    Adjustment.total j k (is.map fun i => ⟨i, .reads, n i⟩)
      = if j ∈ is ∧ k = .reads then (n j).toInt else 0 := by
  induction is with
  | nil => simp
  | cons i is ih =>
    obtain ⟨hi, his⟩ := List.nodup_cons.mp h
    rw [List.map_cons, Adjustment.total_cons, ih his]
    by_cases hij : i = j
    · subst hij
      by_cases hk : k = .reads <;> simp [hi, hk, eq_comm]
    · by_cases hk : k = .reads <;> simp [hij, Ne.symm hij, hk]

theorem total_reads (is : List Item) (j : Item) (k : Counter) :
    Adjustment.total j k (Write.readAll is).adjustments
      = if k = .reads then (is.count j : Int) else 0 := by
  rw [Write.adjustments]
  induction is with
  | nil => simp
  | cons i is ih =>
    rw [List.map_cons, Adjustment.total_cons, ih, List.count_cons]
    have hone : (1 : Int64).toInt = 1 := rfl
    by_cases hk : k = .reads
    · by_cases hij : i = j <;> simp [hk, hij, hone, Int.add_comm]
    · simp [hk, Ne.symm hk]

/-- **Putting reads together loses none of them**, if there are not more than can be counted. -/
theorem total_merged {is : List Item} (h : is.length < 2 ^ 63) (j : Item) (k : Counter) :
    Adjustment.total j k ((merged is).map fun r => ⟨r.1, .reads, r.2⟩)
      = Adjustment.total j k (Write.readAll is).adjustments := by
  have hperm := List.mergeSort_perm is.eraseDups Item.before
  have hnodup : (is.eraseDups.mergeSort Item.before).Nodup :=
    hperm.nodup_iff.mpr (nodup_eraseDups is)
  have hmem : j ∈ is.eraseDups.mergeSort Item.before ↔ j ∈ is := by
    rw [hperm.mem_iff, List.mem_eraseDups]
  have hcount : (Int64.ofNat (is.count j)).toInt = is.count j :=
    Int64.toInt_ofNat_of_lt (Nat.lt_of_le_of_lt List.count_le_length h)
  rw [merged, List.map_map, total_reads]
  refine (total_of_nodup hnodup _ j k).trans ?_
  simp only [hmem, hcount]
  by_cases hj : j ∈ is
  · simp [hj]
  · simp [hj, List.count_eq_zero_of_not_mem hj]

theorem mem_merged {is : List Item} {r : Item × Int64} (h : r ∈ merged is) : r.1 ∈ is := by
  obtain ⟨i, hi, rfl⟩ := List.mem_map.mp h
  rwa [(List.mergeSort_perm _ _).mem_iff, List.mem_eraseDups] at hi

theorem exists_mem_merged {is : List Item} {i : Item} (h : i ∈ is) : ∃ r ∈ merged is, r.1 = i := by
  refine ⟨(i, Int64.ofNat (is.count i)), List.mem_map.mpr ⟨i, ?_, rfl⟩, rfl⟩
  rwa [(List.mergeSort_perm _ _).mem_iff, List.mem_eraseDups]

theorem onTables_addReads {is : List Item} {u : Unit} (his : ∀ i ∈ is, i.Exact)
    (hlength : is.length < 2 ^ 63) (h : onTables now (addReads is).run t = some (.ok u, t')) :
    t.Counted (Write.readAll is).adjustments t' := by
  have hcounted := onTables_addAll (fun r hr => his r.1 (mem_merged hr)) h
  refine ⟨hcounted.marks, hcounted.grown, fun j => (hcounted.moved j).congr ?_ fun k => ?_⟩
  · rw [Write.adjustments]
    constructor
    · rintro ⟨a, ha, rfl⟩
      obtain ⟨r, hr, rfl⟩ := List.mem_map.mp ha
      exact ⟨_, List.mem_map_of_mem (mem_merged hr), rfl⟩
    · rintro ⟨a, ha, rfl⟩
      obtain ⟨i, hi, rfl⟩ := List.mem_map.mp ha
      obtain ⟨r, hr, rfl⟩ := exists_mem_merged hi
      exact ⟨_, List.mem_map_of_mem hr, rfl⟩
  · exact total_merged hlength j k

end Script

/-! ### Writes -/

/-- The turn of a write; reads turn nothing. -/
def Write.turn? : Write → Option Turn
  | .read _ | .readAll _ => none
  | .like i user => some ⟨.like, (i, user), some 0⟩
  | .unlike i user => some ⟨.like, (i, user), none⟩
  | .collect i user folder => some ⟨.collection, (i, user), some folder⟩
  | .uncollect i user _ => some ⟨.collection, (i, user), none⟩

/-- What a write that has succeeded did to the tables. -/
inductive Tables.Recorded (w : Write) (b : Bool) (t t' : Tables) : Prop
  | turn (x : Turn) (t₁ : Tables) (turn : w.turn? = some x) (turned : t.Turned x b t₁)
    (counted : t₁.Counted (if b then w.adjustments else []) t')
  | reads (turn : w.turn? = none) (changed : b = true) (counted : t.Counted w.adjustments t')

/-- **What a write that succeeds has done.** -/
theorem Script.recorded_of_onTables {w : Write} {now : Nat} {b : Bool} {t t' : Tables}
    (hexact : ∀ a ∈ w.adjustments, a.item.Exact) (hlength : w.adjustments.length < 2 ^ 63)
    (h : onTables now (ofWrite w).run t = some (.ok b, t')) : t.Recorded w b t' := by
  cases w with
  | read i =>
    obtain ⟨_, t₁, hadd, hnext⟩ := onTables_ask_eq_some h
    cases hnext
    exact .reads rfl rfl (Tables.counted_add (hexact _ List.mem_cons_self) hadd)
  | readAll is =>
    have his : ∀ i ∈ is, i.Exact := fun i hi => hexact ⟨i, .reads, 1⟩ (List.mem_map_of_mem hi)
    rw [Write.adjustments, List.length_map] at hlength
    cases is with
    | nil =>
      cases h
      exact .reads rfl rfl Tables.Counted.refl
    | cons i is =>
      change onTables now (transaction (addReads (i :: is)) >>= fun _ => pure true).run t = _ at h
      rw [ExceptT.run_bind, onTables_bind, onTables_transaction] at h
      rcases hadd : onTables now (addReads (i :: is)).run t with _ | ⟨_ | u, t₁⟩ <;> rw [hadd] at h
      · cases h
      · cases h
      · cases h
        exact .reads rfl rfl (onTables_addReads his hlength hadd)
  | like i user =>
    obtain ⟨t₁, hturned, hcounted⟩ := onTables_mark (hexact _ List.mem_cons_self) h
    exact .turn _ t₁ rfl hturned hcounted
  | unlike i user =>
    obtain ⟨t₁, hturned, hcounted⟩ := onTables_unmark h
    exact .turn _ t₁ rfl hturned hcounted
  | collect i user folder =>
    obtain ⟨t₁, hturned, hcounted⟩ := onTables_mark (hexact _ List.mem_cons_self) h
    exact .turn _ t₁ rfl hturned hcounted
  | uncollect i user folder =>
    obtain ⟨t₁, hturned, hcounted⟩ := onTables_unmark h
    exact .turn _ t₁ rfl hturned hcounted

end Popularity
