import Popularity.Proofs.Database.Accounts
import Popularity.Proofs.Database.Atomicity

/-!
# A server that is left alone

If the server can be reached and nothing makes its statements fail, then what comes of a write is
known from the tables alone. A statement is refused because of what it says, whatever the tables
hold, or because a counter would leave its range; and there is always a count to take one from, if
marks were in force only on items that had counts to begin with.

## Main definitions

* `Server.Calm` — a server that is left alone
* `Script.evaluate` — what the statements of a script come to, done to some tables
* `Statement.flaw?`, `Write.flaw?` — what is refused whatever the tables hold

## Main results

* `Script.onTables_eq` — the same as `Script.onTables`, which does not tell what was refused
* `Server.Calm.serve_ofWrite` — a calm server says what the tables say
* `Script.ends_ofWrite`, `Server.Calm.result_cases` — a write fails because of what it says, or
  because a counter would leave its range
-/

namespace Popularity

variable {α β : Type}

/-! ### Scripts on tables -/

namespace Script

variable {now : Nat} {t t' : Tables} {s : Statement}

/-- Does the statements of a script to some tables, one after another, up to one that is
refused. -/
def evaluate (now : Nat) :
    Dialogue Statement Statement.Answer α → Tables → Except Refusal (α × Tables)
  | .done a, t => .ok (a, t)
  | .ask s next, t =>
    match s.exec now t with
    | .ok (a, t') => evaluate now (next a) t'
    | .error why => .error why

theorem evaluate_ask_ok {a : s.Answer} {next : s.Answer → Dialogue Statement Statement.Answer α}
    (h : s.exec now t = .ok (a, t')) :
    evaluate now (.ask s next) t = evaluate now (next a) t' := by
  rw [evaluate, h]

theorem evaluate_ask_error {why : Refusal}
    {next : s.Answer → Dialogue Statement Statement.Answer α} (h : s.exec now t = .error why) :
    evaluate now (.ask s next) t = .error why := by
  rw [evaluate, h]

theorem evaluate_bind (now : Nat) (d : Dialogue Statement Statement.Answer α)
    (f : α → Dialogue Statement Statement.Answer β) (t : Tables) :
    evaluate now (d >>= f) t = (evaluate now d t).bind fun r => evaluate now (f r.1) r.2 := by
  change evaluate now (d.bind f) t = _
  induction d generalizing t with
  | done a => rfl
  | ask s next ih =>
    rw [Dialogue.ask_bind, evaluate, evaluate]
    rcases s.exec now t with why | ⟨a, t'⟩
    · rfl
    · exact ih a t'

/-- It is done just the same if it is not told what was refused. -/
theorem onTables_eq (now : Nat) (d : Dialogue Statement Statement.Answer α) (t : Tables) :
    onTables now d t = (evaluate now d t).toOption := by
  induction d generalizing t with
  | done a => rfl
  | ask s next ih =>
    rw [onTables, evaluate]
    rcases s.exec now t with why | ⟨a, t'⟩
    · rfl
    · exact ih a t'

theorem evaluate_transaction (now : Nat) (body : Script α) (t : Tables) :
    evaluate now (transaction body).run t = evaluate now body.run t := by
  rw [run_transaction, evaluate_ask_ok (s := .begin_) rfl, evaluate_bind]
  rcases evaluate now body.run t with _ | ⟨_ | a, t'⟩ <;> rfl

end Script

/-! ### Calm servers -/

namespace Server

variable {v : Server} {t : Tables}

/-- Can be reached and has no statements to refuse. -/
structure Ready (v : Server) : Prop where
  pool : v.pool = .ready
  faults : v.faults = []

/-- A server that is left alone, with no transaction open. -/
structure Calm (v : Server) : Prop extends Ready v where
  draft : v.draft = none

/-- A server that a statement has reached. -/
def noted (v : Server) (s : Statement) : Server := { v with issued := v.issued ++ [s] }

theorem clock_replace (v : Server) (T : Option Tables) : (v.replace T).clock = v.clock := by
  unfold replace
  split <;> rfl

theorem draft_replace {T : Option Tables} (h : v.draft = some T) (T' : Option Tables) :
    (v.replace T').draft = some T' := by
  rw [replace, h]

theorem Ready.noted (h : v.Ready) (s : Statement) : (v.noted s).Ready := ⟨h.pool, h.faults⟩

theorem Ready.replace (h : v.Ready) (T : Option Tables) : (v.replace T).Ready := by
  unfold Server.replace
  split <;> exact ⟨h.pool, h.faults⟩

theorem Ready.execute (h : v.Ready) (s : Statement) : (v.execute s).2.Ready := by
  unfold Server.execute
  split
  · exact ⟨h.pool, h.faults⟩
  · exact ⟨h.pool, h.faults⟩
  · exact h.replace _
  · split
    · split
      · exact h
      · split <;> exact h
    · split
      · exact h.replace _
      · exact h

/-- A statement that is sent is done. -/
theorem Ready.send (h : v.Ready) (s : Statement) :
    v.send s = (((v.noted s).execute s).1.mapError .refused, ((v.noted s).execute s).2) := by
  obtain ⟨hpool, hfaults⟩ := h
  obtain ⟨tables, draft, pool, faults, clock, issued⟩ := v
  subst hpool hfaults
  rfl

theorem Ready.converse (h : v.Ready) (d : Dialogue Statement Statement.Answer α) :
    (v.converse d).2.Ready := by
  induction d generalizing v with
  | done a => exact h
  | ask s next ih =>
    have hsent : (v.send s).2.Ready := by
      rw [h.send]
      exact (h.noted s).execute s
    rcases hs : v.send s with ⟨why | a, v'⟩ <;> rw [hs] at hsent
    · rw [converse_ask_error hs]
      exact hsent
    · rw [converse_ask_ok hs]
      exact ih a hsent

/-- Whatever it is asked, a calm server stays calm. -/
theorem Calm.run (h : v.Calm) (script : Script α) : (v.run script).2.Calm := by
  rw [run_eq]
  have hready : ({ v with clock := v.clock + 1 } : Server).Ready := ⟨h.pool, h.faults⟩
  obtain ⟨hpool, hfaults⟩ := hready.converse script.run
  exact ⟨⟨hpool, hfaults⟩, rfl⟩

theorem Calm.serve (h : v.Calm) (script : Script α) : (v.serve script).2.Calm := by
  rw [serve_eq]
  exact h.run script

/-- A calm server answers, and nothing else comes of it. -/
theorem Calm.healthCheck (h : v.Calm) : ∃ v', v.healthCheck = (.ok (), v') ∧ v'.Calm ∧
    v'.tables = v.tables := by
  have hcalm : v.healthCheck.2.Calm := h.run (Script.send .ping)
  obtain ⟨⟨hpool, hfaults⟩, hdraft⟩ := h
  obtain ⟨tables, draft, pool, faults, clock, issued⟩ := v
  subst hpool hfaults hdraft
  cases tables with
  | none => exact ⟨_, rfl, hcalm, rfl⟩
  | some t => exact ⟨_, rfl, hcalm, rfl⟩

/-- A statement about the tables is done to the tables that it finds. -/
theorem execute_of_exec_eq_ok {s : Statement} {a : s.Answer} {t' : Tables}
    (hs : s.needsTables = true) (ht : v.current = some t) (h : s.exec v.clock t = .ok (a, t')) :
    v.execute s = (.ok a, v.replace (some t')) := by
  unfold execute
  split
  · cases hs
  · cases hs
  · cases hs
  · rw [ht]
    dsimp only
    rw [h]

theorem execute_of_exec_eq_error {s : Statement} {why : Refusal} (hs : s.needsTables = true)
    (ht : v.current = some t) (h : s.exec v.clock t = .error why) :
    v.execute s = (.error why, v) := by
  unfold execute
  split
  · cases hs
  · cases hs
  · cases hs
  · rw [ht]
    dsimp only
    rw [h]

theorem Ready.send_of_exec_eq_ok (h : v.Ready) {s : Statement} {a : s.Answer} {t' : Tables}
    (hs : s.needsTables = true) (ht : v.current = some t)
    (hexec : s.exec v.clock t = .ok (a, t')) :
    v.send s = (.ok a, (v.noted s).replace (some t')) := by
  rw [h.send, execute_of_exec_eq_ok (v := v.noted s) hs ht hexec]
  rfl

theorem Ready.send_of_exec_eq_error (h : v.Ready) {s : Statement} {why : Refusal}
    (hs : s.needsTables = true) (ht : v.current = some t)
    (hexec : s.exec v.clock t = .error why) :
    v.send s = (.error (.refused why), v.noted s) := by
  rw [h.send, execute_of_exec_eq_error (v := v.noted s) hs ht hexec]
  rfl

/-- What a script has come to, as the server tells it. -/
def told : Except Refusal (α × Tables) → Except AccessFailure α
  | .ok r => .ok r.1
  | .error why => .error (.refused why)

/-- A script inside a transaction is done to the draft. -/
theorem Ready.converse_inside (h : v.Ready) {d : Dialogue Statement Statement.Answer α}
    (hd : Script.Inside d) (ht : v.draft = some (some t)) :
    (v.converse d).1 = told (Script.evaluate v.clock d t) := by
  induction d generalizing v t with
  | done a => rfl
  | ask s next ih =>
    obtain ⟨hs, hnext⟩ := hd
    have hcurrent : v.current = some t := by
      rw [current, ht]
      rfl
    rcases hexec : s.exec v.clock t with why | ⟨a, t'⟩
    · rw [converse_ask_error (h.send_of_exec_eq_error hs hcurrent hexec),
        Script.evaluate_ask_error hexec]
      rfl
    · have hdraft : (v.noted s).draft = some (some t) := ht
      have hrest := ih a ((h.noted s).replace (some t')) (hnext a trivial)
        (draft_replace hdraft (some t'))
      rw [clock_replace] at hrest
      rw [converse_ask_ok (h.send_of_exec_eq_ok hs hcurrent hexec), Script.evaluate_ask_ok hexec]
      exact hrest

/-- A transaction is done to the tables. -/
theorem Ready.converse_transaction (h : v.Ready) {body : Script α} (hbody : Script.Inside body.run)
    (ht : v.tables = some t) :
    (v.converse (Script.transaction body).run).1
      = told (Script.evaluate v.clock (Script.transaction body).run t) := by
  have hbegin : v.send .begin_ = (.ok (), { v.noted .begin_ with draft := some v.tables }) :=
    h.send .begin_
  have hready : ({ v.noted .begin_ with draft := some v.tables } : Server).Ready :=
    ⟨h.pool, h.faults⟩
  have hinside := hready.converse_inside hbody (congrArg some ht)
  have hlast := hready.converse body.run
  rw [Script.evaluate_transaction, Script.run_transaction, converse_ask_ok hbegin, converse_bind]
  have hclock : ({ v.noted .begin_ with draft := some v.tables } : Server).clock = v.clock := rfl
  rw [hclock] at hinside
  rw [← hinside]
  rcases hbody : Server.converse body.run { v.noted .begin_ with draft := some v.tables } with
    ⟨why | why | a, v'⟩
  · rfl
  · rfl
  · rw [hbody] at hlast
    have hcommit : v'.send .commit
        = (.ok (), { v'.noted .commit with tables := v'.current, draft := none }) :=
      Ready.send hlast .commit
    dsimp only
    rw [converse_ask_ok hcommit, converse_done]

/-- A single statement needs no transaction. -/
theorem Ready.converse_send (h : v.Ready) {s : Statement} (hs : s.needsTables = true)
    (ht : v.current = some t) :
    (v.converse (Script.send s).run).1 = told (Script.evaluate v.clock (Script.send s).run t) := by
  rw [Script.run_send]
  rcases hexec : s.exec v.clock t with why | ⟨a, t'⟩
  · rw [converse_ask_error (h.send_of_exec_eq_error hs ht hexec), Script.evaluate_ask_error hexec]
    rfl
  · rw [converse_ask_ok (h.send_of_exec_eq_ok hs ht hexec), Script.evaluate_ask_ok hexec]
    rfl

/-- What is said afterwards is told as well. -/
theorem converse_map_told {x : Script α} (f : α → β)
    (hx : (v.converse x.run).1 = told (Script.evaluate v.clock x.run t)) :
    (v.converse (x >>= fun a => pure (f a)).run).1
      = told (Script.evaluate v.clock (x >>= fun a => pure (f a)).run t) := by
  rw [ExceptT.run_bind, converse_bind, Script.evaluate_bind]
  rcases hv : v.converse x.run with ⟨r, v'⟩
  rcases he : Script.evaluate v.clock x.run t with why | ⟨_ | a, t'⟩ <;>
    · rw [hv, he] at hx
      cases hx
      rfl

theorem Calm.converse_ofWrite (h : v.Calm) (ht : v.tables = some t) (w : Write) :
    (v.converse (Script.ofWrite w).run).1
      = told (Script.evaluate v.clock (Script.ofWrite w).run t) := by
  have hcurrent : v.current = some t := by
    rw [current, h.draft]
    exact ht
  have hmark (m i user folder) : (v.converse (Script.mark m i user folder).run).1
      = told (Script.evaluate v.clock (Script.mark m i user folder).run t) := by
    obtain ⟨body, hmark, hinside⟩ := Script.exists_inside_mark m i user folder
    rw [hmark]
    exact h.converse_transaction hinside ht
  have hunmark (m i user) : (v.converse (Script.unmark m i user).run).1
      = told (Script.evaluate v.clock (Script.unmark m i user).run t) := by
    obtain ⟨body, hunmark, hinside⟩ := Script.exists_inside_unmark m i user
    rw [hunmark]
    exact h.converse_transaction hinside ht
  cases w with
  | read i => exact converse_map_told (fun _ => true) (h.converse_send rfl hcurrent)
  | readAll is =>
    cases is with
    | nil => rfl
    | cons i is =>
      exact converse_map_told (fun _ => true)
        (h.converse_transaction (Script.inside_addReads (i :: is)) ht)
  | like i user => exact hmark .like i user 0
  | unlike i user => exact hunmark .like i user
  | collect i user folder => exact hmark .collection i user folder
  | uncollect i user folder => exact hunmark .collection i user

/-- **A calm server says what the tables say.** -/
theorem Calm.serve_ofWrite (h : v.Calm) (ht : v.tables = some t) (w : Write) :
    (v.serve (Script.ofWrite w)).1
      = settle (told (Script.evaluate (v.clock + 1) (Script.ofWrite w).run t)) := by
  have hcalm : ({ v with clock := v.clock + 1 } : Server).Calm := ⟨⟨h.pool, h.faults⟩, h.draft⟩
  rw [serve_eq, hcalm.converse_ofWrite ht]

end Server

/-! ### Flaws -/

namespace Statement

variable {s : Statement} {t : Tables} {now : Nat} {why : Refusal}

/-- What a statement is refused for, whatever the tables hold. -/
def flaw? (s : Statement) : Option Refusal :=
  if s.kind?.any fun kind => kind.toList.contains '\x00' then some zeroCharacter
  else match s with
    | .add i .. | .mark _ i .. => if (fit? i.kind).isNone then some tooLong else none
    | _ => none

theorem error_of_bind_eq_error {x : Except Refusal α} {f : α → Except Refusal β}
    (h : (x >>= f) = .error why) : x = .error why ∨ ∃ a, x = .ok a ∧ f a = .error why := by
  cases x with
  | error why' =>
    cases h
    exact .inl rfl
  | ok a => exact .inr ⟨a, rfl, h⟩

theorem fit?_of_fitItem_eq_error {i : Item} (h : fitItem i = .error why) :
    fit? i.kind = none ∧ why = tooLong := by
  unfold fitItem at h
  split at h
  next => cases h
  next hfit =>
    cases h
    exact ⟨hfit, rfl⟩

theorem isSome_fit?_of_fitItem_eq_ok {i j : Item} (h : fitItem i = .ok j) :
    (fit? i.kind).isSome := by
  unfold fitItem at h
  split at h
  next kind hfit => rw [hfit]; rfl
  next => cases h

theorem eq_of_plus_eq_error {n : Counts} {k : Counter} {by_ : Int64}
    (h : plus n k by_ = .error why) : why = outOfRange := by
  unfold plus at h
  split at h <;> cases h
  rfl

theorem execAdd_error {i : Item} {k : Counter} {by_ : Int64}
    (h : execAdd now i k by_ t = .error why) :
    fit? i.kind = none ∧ why = tooLong ∨ why = outOfRange := by
  unfold execAdd at h
  rcases error_of_bind_eq_error h with hfit | ⟨j, hfit, hput⟩
  · exact .inl (fit?_of_fitItem_eq_error hfit)
  · right
    cases hrow : t.counts.get? j with
    | none =>
      rw [hrow] at hput
      cases hput
    | some row =>
      rw [hrow] at hput
      rcases error_of_bind_eq_error hput with hplus | ⟨n, -, hput⟩
      · exact eq_of_plus_eq_error hplus
      · cases hput

theorem execSubtract_error {i : Item} {k : Counter} (h : execSubtract now i k t = .error why) :
    why = outOfRange := by
  unfold execSubtract at h
  cases hrow : t.counts.get? i with
  | none =>
    rw [hrow] at h
    cases h
  | some row =>
    rw [hrow] at h
    rcases error_of_bind_eq_error h with hplus | ⟨n, -, hput⟩
    · exact eq_of_plus_eq_error hplus
    · cases hput

theorem execMark_error {m : Mark} {i : Item} {user folder : Int64}
    (h : execMark now m i user folder t = .error why) : fit? i.kind = none ∧ why = tooLong := by
  unfold execMark at h
  rcases error_of_bind_eq_error h with hfit | ⟨j, -, hput⟩
  · exact fit?_of_fitItem_eq_error hfit
  · dsimp only at hput
    cases hrow : (t.marks m).get? (j, user) with
    | none =>
      rw [hrow] at hput
      cases hput
    | some row =>
      rw [hrow] at hput
      dsimp only at hput
      split at hput <;> cases hput

/-- **A statement is refused for its flaw, or because a counter would leave its range.** -/
theorem flaw?_of_exec_eq_error (h : s.exec now t = .error why) :
    s.flaw? = some why ∨ why = outOfRange := by
  unfold exec at h
  unfold flaw?
  split at h
  next hzero =>
    cases h
    rw [if_pos hzero]
    exact .inl rfl
  next hzero =>
    rw [if_neg hzero]
    cases s with
    | add i k by_ =>
      rw [effect, map_eq_pure_bind] at h
      rcases error_of_bind_eq_error h with h | ⟨t', -, h⟩
      · rcases execAdd_error h with ⟨hfit, rfl⟩ | rfl
        · exact .inl (by simp [hfit])
        · exact .inr rfl
      · cases h
    | subtract i k => exact .inr (execSubtract_error h)
    | mark m i user folder =>
      obtain ⟨hfit, rfl⟩ := execMark_error h
      exact .inl (by simp [hfit])
    | _ => cases h

theorem effect_of_exec_eq_ok {r : s.Answer × Tables} (h : s.exec now t = .ok r) :
    s.effect now t = .ok r := by
  unfold exec at h
  split at h
  · cases h
  · exact h

/-- What is done has no flaw. -/
theorem flaw?_of_exec_eq_ok {r : s.Answer × Tables} (h : s.exec now t = .ok r) :
    s.flaw? = none := by
  unfold exec at h
  unfold flaw?
  split at h
  · cases h
  next hzero =>
    rw [if_neg hzero]
    cases s with
    | add i k by_ =>
      rw [effect, map_eq_pure_bind] at h
      obtain ⟨t', hadd, -⟩ := exists_of_bind_eq_ok h
      obtain ⟨j, hfit, -⟩ := exists_of_bind_eq_ok hadd
      have hsome := isSome_fit?_of_fitItem_eq_ok hfit
      simp [Option.isNone_iff_eq_none, Option.isSome_iff_ne_none.mp hsome]
    | mark m i user folder =>
      obtain ⟨j, hfit, -⟩ := exists_of_bind_eq_ok h
      have hsome := isSome_fit?_of_fitItem_eq_ok hfit
      simp [Option.isNone_iff_eq_none, Option.isSome_iff_ne_none.mp hsome]
    | _ => rfl

end Statement

/-- What a write is refused for, whatever the tables hold. The first flaw of a list of reads
decides. -/
def Write.flaw? : Write → Option Refusal
  | .read i => (Statement.add i .reads 1).flaw?
  | .readAll is => (Script.merged is).findSome? fun r => (Statement.add r.1 .reads r.2).flaw?
  | .like i user => (Statement.mark .like i user 0).flaw?
  | .unlike i user => (Statement.unmark .like i user).flaw?
  | .collect i user folder => (Statement.mark .collection i user folder).flaw?
  | .uncollect i user _ => (Statement.unmark .collection i user).flaw?

namespace Script

variable {now : Nat} {t t' : Tables} {s : Statement}

/-- How a script that has this flaw, or none, may end. -/
inductive Ends (flaw : Option Refusal) : Except Refusal (Except StoreFailure α × Tables) → Prop
  | refused {why : Refusal} (h : flaw = some why) : Ends flaw (.error why)
  | overflow : Ends flaw (.error Statement.outOfRange)
  | done (h : flaw = none) (a : α) (t : Tables) : Ends flaw (.ok (.ok a, t))

theorem ends_of_exec_error {flaw : Option Refusal} {why : Refusal}
    {next : s.Answer → Dialogue Statement Statement.Answer (Except StoreFailure α)}
    (hflaw : ∀ why, s.flaw? = some why → flaw = some why) (h : s.exec now t = .error why) :
    Ends flaw (evaluate now (.ask s next) t) := by
  rw [evaluate_ask_error h]
  rcases Statement.flaw?_of_exec_eq_error h with h | rfl
  · exact .refused (hflaw why h)
  · exact .overflow

/-- What is said afterwards is no matter. -/
theorem Ends.map {flaw : Option Refusal} {x : Script α} (h : Ends flaw (evaluate now x.run t))
    (f : α → β) : Ends flaw (evaluate now (x >>= fun a => pure (f a)).run t) := by
  rw [ExceptT.run_bind, evaluate_bind]
  generalize evaluate now x.run t = e at h
  cases h with
  | refused h => exact .refused h
  | overflow => exact .overflow
  | done h a t => exact .done h (f a) t

theorem merged_nil : merged [] = [] := by simp [merged]

theorem ends_addAll (l : List (Item × Int64)) (t : Tables) :
    Ends (l.findSome? fun r => (Statement.add r.1 .reads r.2).flaw?)
      (evaluate now (l.forM fun r => send (.add r.1 .reads r.2)).run t) := by
  induction l generalizing t with
  | nil => exact .done rfl () t
  | cons r l ih =>
    change Ends _ (evaluate now (.ask (.add r.1 .reads r.2) fun _ =>
      (l.forM fun r => send (.add r.1 .reads r.2)).run) t)
    rcases hexec : (Statement.add r.1 .reads r.2).exec now t with why | ⟨u, t'⟩
    · refine ends_of_exec_error (fun why hwhy => ?_) hexec
      rw [List.findSome?_cons, hwhy]
    · rw [evaluate_ask_ok hexec, List.findSome?_cons, Statement.flaw?_of_exec_eq_ok hexec]
      exact ih t'

theorem ends_mark (m : Mark) (i : Item) (user folder : Int64) (t : Tables) :
    Ends (Statement.mark m i user folder).flaw?
      (evaluate now (mark m i user folder).run t) := by
  rw [mark, evaluate_transaction, run_send_bind]
  rcases hexec : (Statement.mark m i user folder).exec now t with why | ⟨changed, t₁⟩
  · exact ends_of_exec_error (fun _ => id) hexec
  have hflaw := Statement.flaw?_of_exec_eq_ok hexec
  rw [evaluate_ask_ok hexec]
  cases changed with
  | false => exact .done hflaw false t₁
  | true =>
    change Ends _ (evaluate now (.ask (.add i m.counter 1) fun _ => .done (.ok true)) t₁)
    rcases hadd : (Statement.add i m.counter 1).exec now t₁ with why | ⟨u, t₂⟩
    · exact ends_of_exec_error (fun _ => id) hadd
    · rw [evaluate_ask_ok hadd]
      exact .done hflaw true t₂

/-- There is a count to take one from. -/
theorem found_of_isSome {i : Item} {k : Counter} {found : Bool} (hrow : (t.counts.get? i).isSome)
    (h : Statement.execSubtract now i k t = .ok (found, t')) : found = true := by
  obtain ⟨row, hrow⟩ := Option.isSome_iff_exists.mp hrow
  unfold Statement.execSubtract at h
  rw [hrow] at h
  obtain ⟨n, -, hput⟩ := exists_of_bind_eq_ok h
  cases hput
  rfl

/-- What is in force has counts, so none are missed when it is taken back. -/
theorem isSome_counts_of_unmark {m : Mark} {i : Item} {user : Int64} (hbacked : t.Backed)
    (h : Statement.execUnmark now m i user t = (true, t')) : (t'.counts.get? i).isSome := by
  have hturned := Tables.turned_execUnmark h
  have hactive : (t.active? m (i, user)).isSome := by
    cases hturned with
    | put row hactive standing folder made => exact hactive
  have hrow := hbacked m (i, user) hactive
  rw [hturned.counts_eq]
  simpa [Tables.row] using hrow

theorem ends_unmark (m : Mark) (i : Item) (user : Int64) (hbacked : t.Backed) :
    Ends (Statement.unmark m i user).flaw? (evaluate now (unmark m i user).run t) := by
  rw [unmark, evaluate_transaction, run_send_bind]
  rcases hexec : (Statement.unmark m i user).exec now t with why | ⟨changed, t₁⟩
  · exact ends_of_exec_error (fun _ => id) hexec
  have hflaw := Statement.flaw?_of_exec_eq_ok hexec
  rw [evaluate_ask_ok hexec]
  cases changed with
  | false => exact .done hflaw false t₁
  | true =>
    have hcounts := isSome_counts_of_unmark hbacked
      (Except.ok.inj (Statement.effect_of_exec_eq_ok hexec))
    rw [if_pos rfl, run_send_bind]
    rcases hsubtract : (Statement.subtract i m.counter).exec now t₁ with why | ⟨found, t₂⟩
    · exact ends_of_exec_error (fun _ => id) hsubtract
    · have hfound := found_of_isSome hcounts (Statement.effect_of_exec_eq_ok hsubtract)
      subst hfound
      rw [evaluate_ask_ok hsubtract]
      exact .done hflaw true t₂

/-- **A write fails because of what it says, or because a counter would leave its range.** -/
theorem ends_ofWrite (w : Write) (hbacked : t.Backed) :
    Ends w.flaw? (evaluate now (ofWrite w).run t) := by
  cases w with
  | read i =>
    change Ends _ (evaluate now (.ask (.add i .reads 1) fun _ => .done (.ok true)) t)
    rcases hexec : (Statement.add i .reads 1).exec now t with why | ⟨u, t'⟩
    · exact ends_of_exec_error (fun _ => id) hexec
    · rw [evaluate_ask_ok hexec]
      exact .done (Statement.flaw?_of_exec_eq_ok hexec) true t'
  | readAll is =>
    cases is with
    | nil => exact .done (by rw [Write.flaw?, merged_nil]; rfl) true t
    | cons i is =>
      refine Ends.map (x := transaction (addReads (i :: is))) ?_ fun _ => true
      rw [evaluate_transaction]
      exact ends_addAll (merged (i :: is)) t
  | like i user => exact ends_mark .like i user 0 t
  | unlike i user => exact ends_unmark .like i user hbacked
  | collect i user folder => exact ends_mark .collection i user folder t
  | uncollect i user folder => exact ends_unmark .collection i user hbacked

end Script

/-! ### Writes on a calm server -/

/-- The failure of a write that would take a counter out of its range. -/
def Server.overflow : StoreFailure := (AccessFailure.refused Statement.outOfRange).toStore

/-- **What comes of a write on a calm server.** -/
theorem Server.Calm.result_cases {v : Server} {t : Tables} (h : v.Calm) (ht : v.tables = some t)
    (hbacked : t.Backed) (w : Write) :
    (v.serve (Script.ofWrite w)).1 = .error overflow ∨
    (∃ why, w.flaw? = some why ∧
      (v.serve (Script.ofWrite w)).1 = .error (AccessFailure.refused why).toStore) ∨
    w.flaw? = none ∧ ∃ b, (v.serve (Script.ofWrite w)).1 = .ok b := by
  have hends : Script.Ends w.flaw?
      (Script.evaluate (v.clock + 1) (Script.ofWrite w).run t) := Script.ends_ofWrite w hbacked
  rw [h.serve_ofWrite ht]
  generalize Script.evaluate (v.clock + 1) (Script.ofWrite w).run t = e at hends
  cases hends with
  | @refused why hflaw => exact .inr (.inl ⟨why, hflaw, rfl⟩)
  | overflow => exact .inl rfl
  | done hflaw b t => exact .inr (.inr ⟨hflaw, b, rfl⟩)

end Popularity
