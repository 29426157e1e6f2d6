import Popularity.Proofs.Traffic.Life
import Popularity.Proofs.Traffic.Progress

/-!
# The cache is asked for what the store has changed

Whatever the store answers to the writes of any number of calls, failures of all sorts included, the
adjustments that the cache is asked for are the changes that the store has reported, call by call
and as often as they were reported. Some are awaited by the call that asks, the others are left to
jobs; a call that is about to ask owes the rest. A write that was refused, or had nothing to change,
is followed by nothing, and each adjustment is made at most once, and in time.

An adjustment is told from an equal one by the call that asks for it, which makes the statement
sharper than one about all adjustments together.

## Main definitions

* `Traffic.Turns.changes`, `Traffic.Turns.requests` — with the calls that they go back to
* `Traffic.owed` — the upkeep that a call has not asked for yet
* `Traffic.Mirrors`

## Main results

* `Traffic.Course.mirrors`
-/

namespace Popularity

namespace Traffic

variable {S : Type} {site : Site S} {s₀ s s' : Traffic S} {e : Option Turn} {ts : Turns}
variable {limit c j : Nat} {a : Adjustment}

/-! ### Changes and requests -/

namespace Turn

/-- The changes that the store has reported to a call. -/
def changes : Turn → List (Nat × Adjustment)
  | .wrote c w (.ok true) => w.adjustments.map (c, ·)
  | _ => []

/-- The adjustments that a call has asked for, at once or by a job. -/
def requests : Turn → List (Nat × Adjustment)
  | .left c (.adjust a) _ => [(c, a)]
  | .asked c a => [(c, a)]
  | _ => []

/-- The adjustment that was made in the cache. -/
def made : Turn → List Adjustment
  | .answered _ a true => [a]
  | .ended _ (.adjust a) true => [a]
  | _ => []

/-- Whether a call asks for an adjustment that it awaits, or is answered. -/
def isWait (c : Nat) : Turn → Bool
  | .asked c' _ | .answered c' .. => c' = c
  | _ => false

/-- Only a write that changed something reports changes. -/
theorem eq_wrote_of_mem_changes {d : Turn} {p : Nat × Adjustment} (h : p ∈ d.changes) :
    ∃ w, d = .wrote p.1 w (.ok true) ∧ p.2 ∈ w.adjustments := by
  unfold changes at h
  split at h
  · obtain ⟨a, ha, rfl⟩ := List.mem_map.mp h
    exact ⟨_, rfl, ha⟩
  · cases h

theorem call?_of_mem_changes {d : Turn} {p : Nat × Adjustment} (h : p ∈ d.changes) :
    d.call? = some p.1 := by
  obtain ⟨w, rfl, -⟩ := eq_wrote_of_mem_changes h
  rfl

theorem call?_of_mem_requests {d : Turn} {p : Nat × Adjustment} (h : p ∈ d.requests) :
    d.call? = some p.1 := by
  unfold requests at h
  split at h
  · obtain rfl := List.mem_singleton.mp h
    rfl
  · obtain rfl := List.mem_singleton.mp h
    rfl
  · cases h

theorem call?_of_isWait {d : Turn} (h : d.isWait c = true) : d.call? = some c := by
  cases d with
  | asked c' a => exact congrArg some (of_decide_eq_true h)
  | answered c' a took => exact congrArg some (of_decide_eq_true h)
  | wrote | left | started | ended => cases h

end Turn

namespace Turns

/-- All changes that the store has reported, with the calls that they were reported to. -/
def changes (ts : Turns) : List (Nat × Adjustment) := ts.flatMap (·.2.changes)

/-- All adjustments that the cache was asked for, with the calls that have asked. -/
def requests (ts : Turns) : List (Nat × Adjustment) := ts.flatMap (·.2.requests)

/-- The adjustments that were made in the cache. -/
def made (ts : Turns) : List Adjustment := ts.flatMap (·.2.made)

/-- The turns at which a call asks for an adjustment that it awaits, or is answered. -/
def waits (ts : Turns) (c : Nat) : Turns := ts.filter (·.2.isWait c)

@[simp] theorem changes_cons (x : Nat × Turn) :
    changes (x :: ts) = x.2.changes ++ changes ts := rfl

@[simp] theorem changes_append (ts' : Turns) : changes (ts ++ ts') = changes ts ++ changes ts' := by
  simp [changes]

@[simp] theorem requests_cons (x : Nat × Turn) :
    requests (x :: ts) = x.2.requests ++ requests ts := rfl

@[simp] theorem requests_append (ts' : Turns) :
    requests (ts ++ ts') = requests ts ++ requests ts' := by
  simp [requests]

/-- What goes back to a call is gathered from its turns. -/
theorem count_ofCall {f : Turn → List (Nat × Adjustment)}
    (hf : ∀ d p, p ∈ f d → d.call? = some p.1) (ts : Turns) (c : Nat) (a : Adjustment) :
    (ts.flatMap fun x => f x.2).count (c, a)
      = ((ts.ofCall c).flatMap fun x => f x.2).count (c, a) := by
  induction ts with
  | nil => rfl
  | cons x ts ih =>
    by_cases hx : x.2.call? = some c
    · rw [ofCall, List.filter_cons_of_pos (by simpa using hx), List.flatMap_cons, List.flatMap_cons,
        List.count_append, List.count_append, ih, ofCall]
    · have hzero : (f x.2).count (c, a) = 0 := List.count_eq_zero.mpr fun hmem => hx (hf x.2 _ hmem)
      rw [ofCall, List.filter_cons_of_neg (by simpa using hx), List.flatMap_cons, List.count_append,
        ih, hzero, Nat.zero_add, ofCall]

theorem waits_ofCall (ts : Turns) (c : Nat) : (ts.ofCall c).waits c = ts.waits c := by
  rw [waits, ofCall, List.filter_filter]
  refine List.filter_congr fun x _ => ?_
  by_cases hx : x.2.isWait c = true
  · simp [hx, Turn.call?_of_isWait hx]
  · simp [hx]

end Turns

/-- The upkeep that a call has not asked for yet. -/
def owed (s : Traffic S) (c : Nat) : List Upkeep :=
  (s.calls.get? c).elim [] fun v => if v.since.isSome then [] else v.due

/-! ### One call -/

/-- The changes reported with an answer are what it obliges to. -/
theorem count_changes_wrote (w : Write) (x : Except StoreFailure Bool) :
    (Turn.wrote c w x).changes.count (c, a)
      = (Call.Query.owes (.store (.write w)) x).count (.adjust a) := by
  have hpair : Function.Injective (Prod.mk c : Adjustment → _) := fun _ _ h => (Prod.mk.inj h).2
  have hinj : Function.Injective Upkeep.adjust := fun _ _ h => Upkeep.adjust.inj h
  rcases x with why | b
  · rfl
  · cases b with
    | false => rfl
    | true =>
      rw [Turn.changes, Call.Query.owes_write, List.count_map_of_injective _ _ hpair,
        List.count_map_of_injective _ _ hinj]

/-- Adjustments that were left to jobs were asked for. -/
theorem count_requests_left (jobs : List (Nat × Upkeep × Nat)) :
    (Turns.requests (jobs.map fun b => (b.1, .left c b.2.1 b.2.2))).count (c, a)
      = (jobs.map fun b => b.2.1).count (.adjust a) := by
  induction jobs with
  | nil => rfl
  | cons b jobs ih =>
    obtain ⟨t, u, j⟩ := b
    rw [List.map_cons, List.map_cons, Turns.requests_cons, List.count_append, ih, List.count_cons]
    cases u with
    | adjust b =>
      by_cases hb : b = a <;> simp [Turn.requests, hb]
      omega
    | populate i n => simp [Turn.requests]

/-- A call has asked for what was reported to it, but for what it owes. -/
theorem Life.count_eq {o : Option Visit} (h : Life limit c ts o) (a : Adjustment) :
    ts.requests.count (c, a)
        + (o.elim [] fun v => if v.since.isSome then [] else v.due).count (.adjust a)
      = ts.changes.count (c, a) := by
  cases h with
  | absent => rfl
  | @looking o d ts ho hd hdue hts =>
    have hchanges : ts.changes = [] := List.flatMap_eq_nil_iff.mpr fun x hx => by
      obtain ⟨t, i, n, j, rfl⟩ := hts x hx
      rfl
    have hrequests : ts.requests = [] := List.flatMap_eq_nil_iff.mpr fun x hx => by
      obtain ⟨t, i, n, j, rfl⟩ := hts x hx
      rfl
    have hnone : (Call.due d).count (.adjust a) = 0 := List.count_eq_zero.mpr fun hmem => by
      obtain ⟨i, n, hu⟩ := hdue _ hmem
      cases hu
    rw [hchanges, hrequests]
    simpa [Visit.due] using hnone
  | @fresh o w ho =>
    simp [Visit.due, o.due_call, Turns.requests, Turns.changes]
  | @told o w x t₀ l d ho hdue hd hwhy =>
    have hcount := congrArg (List.count (Upkeep.adjust a)) hdue
    rw [List.count_append, List.map_reverse, List.count_reverse] at hcount
    have hnone : Turns.changes (l.map fun b => (b.1, .left c b.2.1 b.2.2)) = [] :=
      List.flatMap_eq_nil_iff.mpr fun x hx => by
        obtain ⟨b, -, rfl⟩ := List.mem_map.mp hx
        rfl
    have hwrote : Turns.requests [(t₀, .wrote c w x)] = [] := rfl
    rw [Turns.requests_append, Turns.changes_append, hwrote, hnone, List.append_nil,
      List.nil_append, count_requests_left, Turns.changes_cons, List.count_append,
      count_changes_wrote, ← hcount]
    simp [Visit.due, Turns.changes]
  | awaiting hnext => simp [Turns.requests, Turns.changes, Turn.requests, Turn.changes,
      Write.adjustments]
  | followed htook hd => simp [Turns.requests, Turns.changes, Turn.requests, Turn.changes,
      Write.adjustments, Visit.due, hd.due_eq_nil]
  | crashed => simp [Turns.requests, Turns.changes, Turn.requests, Turn.changes,
      Write.adjustments, Visit.due]

/-- A call that is at its end owes nothing. -/
theorem owed_eq_nil
    (h : ∀ v, s.calls.get? c = some v → v.rest = none ∨ ∃ r, v.rest = some (.done r)) :
    s.owed c = [] := by
  unfold owed
  cases hc : s.calls.get? c with
  | none => rfl
  | some v =>
    have hdue : v.due = [] := by
      rcases h v hc with hv | ⟨r, hv⟩ <;> simp [Visit.due, hv]
    simp [hdue]

/-- A write that was refused, or had nothing to change, is all that a call has done, and it only
reports after that. -/
theorem Life.refused {o : Option Visit} {t : Nat} {w : Write} {x : Except StoreFailure Bool}
    (h : Life limit c ts o) (hmem : (t, .wrote c w x) ∈ ts) (hx : x ≠ .ok true) :
    ts = [(t, .wrote c w x)] ∧ ∃ v d, o = some v ∧ v.rest = some d ∧
      Call.Reports (Service.toldWrite x) d ∧
      ∀ why, x = .error why → d = .done (.error (.store why)) := by
  cases h with
  | absent => cases hmem
  | fresh => cases hmem
  | looking ho hd hdue hts =>
    obtain ⟨t', i, n, j, heq⟩ := hts _ hmem
    cases heq
  | @told o w' x' t₀ l d ho hdue hd hwhy =>
    cases eq_of_wrote_mem_told hmem
    have howes : Call.Query.owes (.store (.write w)) x = [] := by
      rcases x with why | b
      · rfl
      · cases b with
        | false => rfl
        | true => exact absurd rfl hx
    obtain ⟨hleft, hnone⟩ := List.append_eq_nil_iff.mp (hdue.trans howes)
    obtain rfl : l = [] := by simpa using hleft
    refine ⟨rfl, _, d, rfl, rfl, ?_, hwhy⟩
    rcases hd with hmeets | ⟨-, a, next, rfl, -⟩
    · exact .of_due hmeets hnone
    · cases hnone
  | awaiting hnext => simp_all
  | followed htook hd => simp_all
  | crashed => simp_all

/-! ### Adjustments that are awaited -/

/-- The turns at which a call asks for an adjustment that it awaits, and is answered. -/
inductive Wait (limit c : Nat) : Turns → Prop
  | none : Wait limit c []
  | asked {t₁ : Nat} {a : Adjustment} : Wait limit c [(t₁, .asked c a)]
  | answered {t₁ t₂ : Nat} {a : Adjustment} {took : Bool} (htook : took = true → t₂ ≤ t₁ + limit) :
    Wait limit c [(t₂, .answered c a took), (t₁, .asked c a)]

theorem Life.wait {o : Option Visit} (h : Life limit c ts o) : Wait limit c (ts.waits c) := by
  cases h with
  | absent => exact .none
  | fresh => exact .none
  | looking ho hd hdue hts =>
    have hnone : ts.waits c = [] := List.filter_eq_nil_iff.mpr fun x hx => by
      obtain ⟨t, i, n, j, rfl⟩ := hts x hx
      simp [Turn.isWait]
    rw [hnone]
    exact .none
  | @told o w x t₀ l d ho hdue hd hwhy =>
    have hnone : Turns.waits
        (l.map (fun b => (b.1, .left c b.2.1 b.2.2)) ++ [(t₀, .wrote c w x)]) c = [] :=
      List.filter_eq_nil_iff.mpr fun y hy => by
        rcases List.mem_append.mp hy with hy | hy
        · obtain ⟨b, -, rfl⟩ := List.mem_map.mp hy
          simp [Turn.isWait]
        · obtain rfl := List.mem_singleton.mp hy
          simp [Turn.isWait]
    rw [hnone]
    exact .none
  | awaiting hnext => simpa [Turns.waits, Turn.isWait] using Wait.asked
  | followed htook hd => simpa [Turns.waits, Turn.isWait] using Wait.answered htook
  | @crashed o i t₀ t₁ t₂ =>
    have hwait : Wait limit c
        [(t₂, .answered c ⟨i, .reads, 1⟩ false), (t₁, .asked c ⟨i, .reads, 1⟩)] := .answered nofun
    simpa [Turns.waits, Turn.isWait] using hwait

/-! ### Rows -/

/-- The changes that are written down are those in the history. -/
theorem Move.changes_eq (h : Move site s e s') :
    s'.history.changes = (e.elim [] Turn.changes).map (·.2) ++ s.history.changes := by
  have hnone : ∀ c q x, (∀ w, q ≠ .store (.write w)) →
      ((Turn.ofAnswer c q x).elim [] Turn.changes).map (·.2) = ([] : List Adjustment) := by
    intro c q x hq
    unfold Turn.ofAnswer
    split
    · exact absurd rfl (hq _)
    · rfl
    · rfl
  cases h with
  | @hear s₁ c v q x next hc hv hq hr =>
    rw [history_visit]
    cases hr with
    | store r =>
      rw [changes_note]
      cases r with
      | write w =>
        rcases (site.answer (.write w) s.store).1 with why | b
        · rfl
        · cases b with
          | false => rfl
          | true =>
            simp [Deed.ofAnswer, Turn.ofAnswer, Deed.changes, Turn.changes, Function.comp_def]
      | counts i =>
        rw [hnone c _ _ (by simp)]
        rcases (site.answer (.counts i) s.store).1 with why | n <;> rfl
      | countsOf kind ids => rfl
      | marked m i user => rfl
    | storeFailed r why => cases r <;> rfl
    | marks => rfl
    | cached => rfl
    | cacheFailed => rfl
    | adjusted => rfl
    | adjustFailed => rfl
    | adjustLate => rfl
    | detached u j hj => exact absurd rfl (hq u)
    | reported => rfl
  | finish hj hended ht hnow =>
    rw [history_chore, changes_note, Deed.changes_ofWork]
    rfl
  | lose hj hended ht =>
    rw [history_chore, changes_note, Deed.changes_ofLoss]
    rfl
  | pass | enter | leave | await | crash | start => rfl

theorem Course.changes_eq (h : Course site s₀ ts s) :
    s.history.changes = ts.changes.map (·.2) ++ s₀.history.changes := by
  induction h with
  | start => rfl
  | @next ts s s' e h hm ih =>
    rw [hm.changes_eq, ih, ← List.append_assoc, ← List.map_append]
    cases e <;> rfl

/-- The adjustments that are written down as made are those in the history. -/
theorem Move.applied_eq (h : Move site s e s') :
    s'.history.applied = e.elim [] Turn.made ++ s.history.applied := by
  cases h with
  | @hear s₁ c v q x next hc hv hq hr =>
    rw [history_visit]
    cases hr with
    | store r =>
      rw [history_note, History.applied_append]
      cases r with
      | write w =>
        rcases (site.answer (.write w) s.store).1 with why | b
        · rfl
        · cases b <;> rfl
      | counts i => rcases (site.answer (.counts i) s.store).1 with why | n <;> rfl
      | countsOf kind ids => rfl
      | marked m i user => rfl
    | storeFailed r why => cases r <;> rfl
    | adjusted a t out cache ht hnow hout => cases out <;> rfl
    | detached u j hj => exact absurd rfl (hq u)
    | marks | cached | cacheFailed | adjustFailed | adjustLate | reported => rfl
  | @finish j t ch hj hended ht hnow =>
    obtain ⟨job, left, since, ended⟩ := ch
    cases job with
    | adjust a =>
      change (_ ++ s.history.applied : List Adjustment) = _ ++ s.history.applied
      congr 1
      rcases (s.cache.exec s.now (Upkeep.adjust a).op).1 with crash | out
      · rfl
      · cases out <;> rfl
    | populate i n =>
      rw [history_chore, history_note, History.applied_append]
      rcases (s.cache.exec s.now (Upkeep.populate i n).op).1 with crash | out <;> rfl
  | @lose j t ch hj hended ht =>
    obtain ⟨job, left, since, ended⟩ := ch
    cases job <;> rfl
  | pass | enter | leave | await | crash | start => rfl

theorem Course.applied_eq (h : Course site s₀ ts s) :
    s.history.applied = ts.made ++ s₀.history.applied := by
  induction h with
  | start => rfl
  | @next ts s s' e h hm ih =>
    rw [hm.applied_eq, ih, ← List.append_assoc]
    cases e <;> rfl

/-- In the presence of a store that keeps the contract, the rows move by the changes in the
history. -/
theorem Run.row_moved {reg : Registry S} (h : Run reg.toSite s₀ s) (hs₀ : s₀.history = [])
    (i : Item) : Row.Moved i s.history.changes (reg.row s₀.store i) (reg.row s.store i) := by
  induction h with
  | refl => rw [hs₀]; exact Row.Moved.refl
  | tail _ hstep ih =>
    obtain ⟨d, hd⟩ := hstep.progress
    rw [hd.history_eq]
    refine (ih.append (hd.row_moved i)).perm ?_
    cases d with
    | none => simp
    | some d => simpa using List.perm_append_comm

/-! ### Mirroring -/

/-- Whether the cache was asked for what the store has changed. -/
structure Mirrors (site : Site S) (s₀ : Traffic S) (ts : Turns) (s : Traffic S) : Prop where
  /-- Every call has asked for the changes that were reported to it, but for what it owes. -/
  count_eq : ∀ c a,
    ts.requests.count (c, a) + (s.owed c).count (.adjust a) = ts.changes.count (c, a)
  /-- When all calls are at their ends, the adjustments asked for are the changes. -/
  perm : (∀ c v, s.calls.get? c = some v → v.rest = none ∨ ∃ r, v.rest = some (.done r)) →
    (ts.requests.map (·.2)).Perm (ts.changes.map (·.2))
  /-- The changes that are reported have been made to the rows, if the store keeps the contract. -/
  row_moved : ∀ reg : Registry S, reg.toSite = site → ∀ i,
    Row.Moved i (ts.changes.map (·.2)) (reg.row s₀.store i) (reg.row s.store i)
  /-- An adjustment is asked for only after the store has reported its change to the same call. -/
  warranted : ∀ newer x older, ts = newer ++ x :: older → ∀ c a, (c, a) ∈ x.2.requests →
    ∃ t w, (t, .wrote c w (.ok true)) ∈ older ∧ a ∈ w.adjustments
  /-- A write that was refused, or had nothing to change, is the only turn of its call, which owes
  nothing, and leaves nothing to any job. The refusal is what the call has ended with. -/
  refused : ∀ t c w x, (t, .wrote c w x) ∈ ts → x ≠ .ok true →
    ts.ofCall c = [(t, .wrote c w x)] ∧ ∃ v d, s.calls.get? c = some v ∧ v.rest = some d ∧
      Call.Reports (Service.toldWrite x) d ∧
      ∀ why, x = .error why → d = .done (.error (.store why))
  /-- An adjustment that is awaited is made at most once, and in time. -/
  wait : ∀ c, Wait s.limit c (ts.waits c)
  /-- And so is the upkeep of every job. -/
  tenure : ∀ j, ∃ o, Tenure s.limit j (ts.ofJob j) o
  /-- No other adjustment is made. -/
  applied_eq : s.history.applied = ts.made

variable {limit : Nat} {store : S} {o : Cache.Options}

theorem Course.count_eq (h : Course site (opening limit store o) ts s) (c : Nat) (a : Adjustment) :
    ts.requests.count (c, a) + (s.owed c).count (.adjust a) = ts.changes.count (c, a) := by
  rw [Turns.requests, Turns.changes, Turns.count_ofCall (fun _ _ => Turn.call?_of_mem_requests),
    Turns.count_ofCall fun _ _ => Turn.call?_of_mem_changes]
  exact (h.life c).count_eq a

/-- **The cache is asked for exactly what the store has changed**, whatever the store answers and
however calls and jobs take their turns. -/
theorem Course.mirrors (h : Course site (opening limit store o) ts s) :
    Mirrors site (opening limit store o) ts s where
  count_eq := h.count_eq
  perm hends := by
    refine List.Perm.map _ (List.perm_iff_count.mpr ?_)
    rintro ⟨c, a⟩
    have hcount := h.count_eq c a
    rwa [owed_eq_nil (hends c), List.count_nil, Nat.add_zero] at hcount
  row_moved := by
    rintro reg rfl i
    have hmoved := Run.row_moved h.run rfl i
    rwa [h.changes_eq, show (opening limit store o).history.changes = [] from rfl,
      List.append_nil] at hmoved
  warranted newer x older hts c a hmem := by
    -- just after the request, it is among those that the changes account for
    obtain ⟨s₁, h₁, -⟩ := h.exists_after hts
    have hcount := h₁.count_eq c a
    rw [Turns.requests_cons, List.count_append] at hcount
    have hpos := List.count_pos_iff.mpr hmem
    have hchanged : (c, a) ∈ Turns.changes (x :: older) := List.count_pos_iff.mp (by omega)
    obtain ⟨⟨t, d⟩, hy, hya⟩ := List.mem_flatMap.mp hchanged
    obtain ⟨w, rfl, ha⟩ := Turn.eq_wrote_of_mem_changes hya
    rcases List.mem_cons.mp hy with rfl | hy
    · cases hmem
    · exact ⟨t, w, hy, ha⟩
  refused t c w x hmem hx := (h.life c).refused (Turns.mem_ofCall.mpr ⟨hmem, rfl⟩) hx
  wait c := Turns.waits_ofCall ts c ▸ (h.life c).wait
  tenure j := ⟨_, h.tenure j⟩
  applied_eq := by
    rw [h.applied_eq]
    exact List.append_nil _

section Batch

open Ledger

/-- The article when two have read it. -/
def readTwice : Ledger := { counts := [(article, ⟨2, 0, 0⟩)] }

theorem answer_readTwice : answer (.write (.readAll [article, article])) untouched
    = (.ok true, readTwice) := rfl

/-- Two reads of one item are counted at once and leave two jobs, one of which gets stuck. A like is
refused, and leaves none. -/
theorem mirrors_batch : ∃ ts s, Course registry.toSite (opening 500 untouched {}) ts s ∧
    (ts.requests.map (·.2)).Perm [⟨article, .reads, 1⟩, ⟨article, .reads, 1⟩] ∧
    ts.ofCall 1 = [(0, .wrote 1 (.like article 7) (.error .timeout))] := by
  have h₀ : Course registry.toSite (opening 500 untouched {}) [] _ := .start
  have h₁ := h₀.next (.enter _ 0 (.record (.readAll [article, article])) rfl)
  have h₂ := h₁.next (.hear (c := 0) rfl rfl nofun (.answered answer_readTwice))
  have h₃ := h₂.next (.leave (c := 0) (j := 0) rfl rfl rfl)
  have h₄ := h₃.next (.leave (c := 0) (j := 1) rfl rfl rfl)
  have h₅ := h₄.next (.enter _ 1 (.record (.like article 7)) rfl)
  have h₆ := h₅.next (.hear (c := 1) rfl rfl nofun (.storeFailed _ .timeout))
  have h₇ := h₆.next (.start (j := 0) rfl rfl)
  have h₈ := h₇.next (.finish (j := 0) rfl rfl rfl (by decide))
  have h₉ := h₈.next (.start (j := 1) rfl rfl)
  have h₁₀ := h₉.next (.lose (j := 1) rfl rfl rfl)
  have hm := Course.mirrors h₁₀
  refine ⟨_, _, h₁₀, hm.perm ?_, (hm.refused 0 1 _ (.error .timeout) ?_ nofun).1⟩
  · intro c v hc
    rcases List.mem_cons.mp (Table.mem_of_get?_eq_some hc) with heq | hmem
    · cases heq
      exact .inr ⟨_, rfl⟩
    · cases List.mem_singleton.mp hmem
      exact .inr ⟨_, rfl⟩
  · exact List.mem_of_getElem? (i := 4) rfl

end Batch

end Traffic

end Popularity
