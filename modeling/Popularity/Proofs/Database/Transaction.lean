import Popularity.Proofs.Database.Exchange
import Popularity.Proofs.Dialogue

/-!
# All or nothing

A write that fails has done nothing. A single statement that is refused has no effect, and the
statements of a transaction work on a draft, which takes the place of the tables only when the last
one of them, the commit, has gone well. So it does not matter where a transaction breaks off, how
much of it was done by then, or whether it was the server, the line or the data that broke it.

A write that succeeds has done what its statements do to the tables, one after another and with
nothing in between.

## Main definitions

* `Script.onTables` — the statements of a script done one after another
* `Script.Inside` — a script whose statements are all about the tables
* `Script.Whole` — a script that is done as a whole or not at all

## Main results

* `Script.Inside.converse` — a script inside a transaction leaves the tables alone
* `Script.Inside.whole_transaction`, `Script.whole_ofWrite`
* `Server.serve_cases` — what such a script comes to
-/

namespace Popularity

variable {α β : Type}

/-! ### Scripts on tables -/

namespace Script

/-- Does the statements of a script to some tables, one after another; `none` if one is refused. -/
def onTables (now : Nat) :
    Dialogue Statement Statement.Answer α → Tables → Option (α × Tables)
  | .done a, t => some (a, t)
  | .ask s next, t =>
    match s.exec now t with
    | .ok (a, t') => onTables now (next a) t'
    | .error _ => none

theorem onTables_ask {now : Nat} {s : Statement} {a : s.Answer} {t t' : Tables}
    {next : s.Answer → Dialogue Statement Statement.Answer α} (h : s.exec now t = .ok (a, t')) :
    onTables now (.ask s next) t = onTables now (next a) t' := by
  rw [onTables, h]

theorem onTables_bind (now : Nat) (d : Dialogue Statement Statement.Answer α)
    (f : α → Dialogue Statement Statement.Answer β) (t : Tables) :
    onTables now (d >>= f) t = (onTables now d t).bind fun r => onTables now (f r.1) r.2 := by
  change onTables now (d.bind f) t = _
  induction d generalizing t with
  | done a => rfl
  | ask s next ih =>
    rw [Dialogue.ask_bind, onTables, onTables]
    rcases s.exec now t with why | ⟨a, t'⟩
    · rfl
    · exact ih a t'

theorem run_send (s : Statement) : (send s).run = .ask s fun a => .done (.ok a) := rfl

theorem run_send_bind (s : Statement) (f : s.Answer → Script α) :
    (send s >>= f).run = .ask s fun a => (f a).run := rfl

/-- Asks for nothing but statements about the tables. -/
def Inside (d : Dialogue Statement Statement.Answer α) : Prop :=
  d.Meets (fun s => s.needsTables = true) (fun _ _ => True) (fun _ => True)

theorem inside_send {s : Statement} (h : s.needsTables = true) : Inside (send s).run :=
  ⟨h, fun _ _ => trivial⟩

theorem inside_pure (a : α) : Inside (pure a : Script α).run := trivial

theorem inside_throw (why : StoreFailure) : Inside (throw why : Script α).run := trivial

theorem Inside.bind {x : Script α} {f : α → Script β} (hx : Inside x.run)
    (hf : ∀ a, Inside (f a).run) : Inside (x >>= f).run := by
  rw [ExceptT.run_bind, Inside, Dialogue.meets_bind]
  refine hx.mono fun r _ => ?_
  cases r with
  | ok a => exact hf a
  | error why => exact trivial

theorem inside_forM {ι : Type} {is : List ι} {f : ι → Script Unit} (hf : ∀ i, Inside (f i).run) :
    Inside (is.forM f).run := by
  induction is with
  | nil => exact inside_pure ()
  | cons i is ih => exact (hf i).bind fun _ => ih

end Script

/-! ### One statement -/

namespace Server

variable {v v' : Server} {s : Statement} {t : Tables}

/-- A statement that is refused changes nothing. -/
theorem eq_of_execute_error {why : Refusal} (h : v.execute s = (.error why, v')) : v' = v := by
  unfold execute at h
  split at h
  · cases h
  · cases h
  · cases h
  · split at h
    · split at h
      · cases h; rfl
      · split at h <;> cases h
        rfl
    · split at h <;> cases h
      rfl

/-- What a statement about the tables comes to if it is done. -/
theorem execute_eq_ok {a : s.Answer} (hs : s.needsTables = true)
    (h : v.execute s = (.ok a, v')) :
    ∃ t t', v.current = some t ∧ s.exec v.clock t = .ok (a, t') ∧ v' = v.replace (some t') := by
  unfold execute at h
  split at h
  · cases hs
  · cases hs
  · cases hs
  · cases hcurrent : v.current with
    | none =>
      rw [hcurrent] at h
      dsimp only at h
      rw [if_pos hs] at h
      cases h
    | some t =>
      rw [hcurrent] at h
      dsimp only at h
      split at h
      next b t' hexec =>
        cases h
        exact ⟨t, t', rfl, hexec, rfl⟩
      next => cases h

/-- All that can come of a statement: it fails and changes nothing, or the server does it. -/
theorem send_cases (s : Statement) (v : Server) :
    (∃ why faults issued, v.send s = (.error why, { v with faults, issued })) ∨
    ∃ a v' faults issued, ({ v with faults, issued } : Server).execute s = (.ok a, v') ∧
      v.send s = (.ok a, v') := by
  unfold send
  cases v.unreachable? with
  | some why => exact .inl ⟨why, v.faults, v.issued, rfl⟩
  | none =>
    dsimp only
    cases (SqlFault.meet s v.faults).1 with
    | some why => exact .inl ⟨.refused why, _, _, rfl⟩
    | none =>
      dsimp only
      rcases hs : ({ v with faults := (SqlFault.meet s v.faults).2, issued := v.issued ++ [s] } :
        Server).execute s with ⟨why | a, v'⟩
      · obtain rfl := eq_of_execute_error hs
        exact .inl ⟨.refused why, _, _, rfl⟩
      · exact .inr ⟨a, v', _, _, hs, rfl⟩

end Server

/-! ### Transactions -/

namespace Script

/-- **A script inside a transaction leaves the tables alone.** All it does is done to the draft. -/
theorem Inside.converse {d : Dialogue Statement Statement.Answer α} (h : Inside d) (v : Server)
    {T : Option Tables} (hv : v.draft = some T) :
    ∃ r T' faults issued, v.converse d = (r, { v with draft := some T', faults, issued }) ∧
      ∀ a, r = .ok a → ∀ t, T = some t →
        ∃ t', T' = some t' ∧ onTables v.clock d t = some (a, t') := by
  induction d generalizing v T with
  | done a =>
    refine ⟨.ok a, T, v.faults, v.issued, ?_, ?_⟩
    · rw [Server.converse_done, ← hv]
    · rintro _ ⟨⟩ t rfl
      exact ⟨t, rfl, rfl⟩
  | ask s next ih =>
    obtain ⟨hs, hnext⟩ := h
    rcases Server.send_cases s v with
      ⟨why, faults, issued, hsend⟩ | ⟨a, v', faults, issued, he, hsend⟩
    · refine ⟨.error why, T, faults, issued, ?_, nofun⟩
      rw [Server.converse_ask_error hsend, ← hv]
    · -- the statement is done, so there are tables in the draft
      obtain ⟨t, t', hcurrent, hexec, rfl⟩ := Server.execute_eq_ok hs he
      have hT : T = some t := by
        rw [← hcurrent]
        simp [Server.current, hv]
      have hreplace : ({ v with faults, issued } : Server).replace (some t')
          = { v with draft := some (some t'), faults, issued } := by
        simp [Server.replace, hv]
      rw [Server.converse_ask_ok hsend, hreplace]
      obtain ⟨r, T', faults', issued', hr, hok⟩ :=
        ih a (hnext a trivial) { v with draft := some (some t'), faults, issued } rfl
      refine ⟨r, T', faults', issued', hr, ?_⟩
      intro b hb t₀ ht₀
      obtain rfl : t₀ = t := by
        rw [ht₀] at hT
        exact Option.some.inj hT
      rw [onTables_ask hexec]
      exact hok b hb t' rfl

/-- Is done as a whole or not at all. If it fails, by itself or by the server, then the tables are
as they were; if it goes well, then all its statements have been done to them. -/
def Whole (script : Script α) : Prop :=
  ∀ v : Server,
    (∃ r why draft faults issued, v.converse script.run = (r, { v with draft, faults, issued }) ∧
      Server.settle r = .error why) ∨
    ∃ a tables draft faults issued,
      v.converse script.run = (.ok (.ok a), { v with tables, draft, faults, issued }) ∧
      (v.draft = none → ∀ t, v.tables = some t →
        ∃ t', tables = some t' ∧ onTables v.clock script.run t = some (.ok a, t'))

theorem whole_pure (a : α) : Whole (pure a : Script α) :=
  fun v => .inr ⟨a, v.tables, v.draft, v.faults, v.issued, rfl, fun _ t ht => ⟨t, ht, rfl⟩⟩

/-- A single statement needs no transaction. -/
theorem whole_send {s : Statement} (hs : s.needsTables = true) : Whole (send s) := by
  intro v
  rw [run_send]
  rcases Server.send_cases s v with
    ⟨why, faults, issued, hsend⟩ | ⟨a, v', faults, issued, he, hsend⟩
  · exact .inl ⟨.error why, why.toStore, v.draft, faults, issued,
      Server.converse_ask_error hsend, rfl⟩
  · right
    obtain ⟨t, t', hcurrent, hexec, rfl⟩ := Server.execute_eq_ok hs he
    rw [Server.converse_ask_ok hsend, Server.converse_done]
    cases hv : v.draft with
    | some T =>
      refine ⟨a, v.tables, some (some t'), faults, issued, ?_, nofun⟩
      simp [Server.replace]
    | none =>
      refine ⟨a, some t', none, faults, issued, ?_, ?_⟩
      · simp [Server.replace]
      · intro _ t₀ ht₀
        obtain rfl : t₀ = t := by
          have : some t₀ = some t := by
            rw [← ht₀, ← hcurrent]
            simp [Server.current, hv]
          exact Option.some.inj this
        exact ⟨t', rfl, onTables_ask hexec⟩

/-- What is said afterwards changes nothing. -/
theorem Whole.map {x : Script α} (h : Whole x) (f : α → β) :
    Whole (x >>= fun a => pure (f a)) := by
  intro v
  rw [ExceptT.run_bind, Server.converse_bind]
  rcases h v with ⟨r, why, draft, faults, issued, hr, hwhy⟩ |
    ⟨a, tables, draft, faults, issued, hr, hok⟩
  · left
    rw [hr]
    rcases r with _ | _ | _
    · cases hwhy
      exact ⟨_, _, draft, faults, issued, rfl, rfl⟩
    · cases hwhy
      exact ⟨_, _, draft, faults, issued, rfl, rfl⟩
    · cases hwhy
  · right
    rw [hr]
    refine ⟨f a, tables, draft, faults, issued, rfl, ?_⟩
    intro hv t ht
    obtain ⟨t', rfl, ht'⟩ := hok hv t ht
    refine ⟨t', rfl, ?_⟩
    rw [onTables_bind, ht']
    rfl

/-- A transaction statement by statement. -/
theorem run_transaction (body : Script α) :
    (transaction body).run = .ask .begin_ fun _ => body.run >>= fun
      | .ok a => .ask .commit fun _ => .done (.ok a)
      | .error why => .done (.error why) := by
  change Dialogue.ask Statement.begin_ _ = _
  congr 1
  funext _
  refine congrArg (Dialogue.bind body.run) (funext fun r => ?_)
  cases r <;> rfl

/-- **A transaction is done as a whole or not at all.** -/
theorem Inside.whole_transaction {body : Script α} (h : Inside body.run) :
    Whole (transaction body) := by
  intro v
  rw [run_transaction]
  rcases Server.send_cases .begin_ v with
    ⟨why, faults, issued, hbegin⟩ | ⟨_, v₁, f₁, n₁, he, hbegin⟩
  · exact .inl ⟨.error why, why.toStore, v.draft, faults, issued,
      Server.converse_ask_error hbegin, rfl⟩
  obtain rfl : v₁ = { v with draft := some v.tables, faults := f₁, issued := n₁ } := by
    cases he
    rfl
  rw [Server.converse_ask_ok hbegin, Server.converse_bind]
  obtain ⟨r, T, f₂, n₂, hr, hok⟩ :=
    h.converse { v with draft := some v.tables, faults := f₁, issued := n₁ } rfl
  rw [hr]
  rcases r with why | why | a
  · exact .inl ⟨.error why, why.toStore, some T, f₂, n₂, rfl, rfl⟩
  · exact .inl ⟨.ok (.error why), why, some T, f₂, n₂, rfl, rfl⟩
  -- the body has gone well, and everything hangs on the commit
  dsimp only
  rcases Server.send_cases .commit { v with draft := some T, faults := f₂, issued := n₂ } with
    ⟨why, faults, issued, hcommit⟩ | ⟨_, v₂, faults, issued, he', hcommit⟩
  · exact .inl ⟨.error why, why.toStore, some T, faults, issued,
      Server.converse_ask_error hcommit, rfl⟩
  · right
    obtain rfl : v₂ = { v with tables := T, draft := none, faults, issued } := by
      cases he'
      rfl
    refine ⟨a, T, none, faults, issued, Server.converse_ask_ok hcommit, ?_⟩
    intro _ t ht
    obtain ⟨t', rfl, ht'⟩ := hok (.ok a) rfl t ht
    refine ⟨t', rfl, ?_⟩
    rw [onTables_ask (s := .begin_) rfl, onTables_bind, ht']
    rfl

/-- To put a mark in force is a transaction of statements about the tables. -/
theorem exists_inside_mark (m : Mark) (i : Item) (user folder : Int64) :
    ∃ body : Script Bool, mark m i user folder = transaction body ∧ Inside body.run := by
  refine ⟨_, rfl, (inside_send rfl).bind fun changed => ?_⟩
  cases changed with
  | true => exact (inside_send rfl).bind fun _ => inside_pure true
  | false => exact inside_pure false

/-- So is to take one back. -/
theorem exists_inside_unmark (m : Mark) (i : Item) (user : Int64) :
    ∃ body : Script Bool, unmark m i user = transaction body ∧ Inside body.run := by
  refine ⟨_, rfl, (inside_send rfl).bind fun changed => ?_⟩
  cases changed with
  | false => exact inside_pure false
  | true =>
    refine (inside_send rfl).bind fun found => ?_
    cases found with
    | true => exact inside_pure true
    | false => exact inside_throw (withoutCounts i)

theorem inside_addReads (is : List Item) : Inside (addReads is).run :=
  inside_forM fun _ => inside_send rfl

theorem whole_mark (m : Mark) (i : Item) (user folder : Int64) : Whole (mark m i user folder) := by
  obtain ⟨body, hmark, hinside⟩ := exists_inside_mark m i user folder
  rw [hmark]
  exact hinside.whole_transaction

theorem whole_unmark (m : Mark) (i : Item) (user : Int64) : Whole (unmark m i user) := by
  obtain ⟨body, hunmark, hinside⟩ := exists_inside_unmark m i user
  rw [hunmark]
  exact hinside.whole_transaction

/-- **All writes are done as a whole or not at all.** -/
theorem whole_ofWrite (w : Write) : Whole (ofWrite w) := by
  cases w with
  | read i => exact (whole_send rfl).map fun _ => true
  | readAll is =>
    cases is with
    | nil => exact whole_pure true
    | cons i is => exact (inside_addReads (i :: is)).whole_transaction.map fun _ => true
  | like i user => exact whole_mark .like i user 0
  | unlike i user => exact whole_unmark .like i user
  | collect i user folder => exact whole_mark .collection i user folder
  | uncollect i user folder => exact whole_unmark .collection i user

end Script

/-! ### Writes -/

namespace Server

/-- What a script that is done as a whole or not at all comes to. -/
theorem serve_cases {script : Script α} (h : script.Whole) (v : Server) :
    (∃ why faults issued, v.serve script
      = (.error why, { v with clock := v.clock + 1, draft := none, faults, issued })) ∨
    ∃ a tables faults issued, v.serve script
        = (.ok a, { v with tables, clock := v.clock + 1, draft := none, faults, issued }) ∧
      (v.draft = none → ∀ t, v.tables = some t → ∃ t', tables = some t' ∧
        Script.onTables (v.clock + 1) script.run t = some (.ok a, t')) := by
  rw [serve_eq]
  rcases h { v with clock := v.clock + 1 } with ⟨r, why, draft, faults, issued, hr, hwhy⟩ |
    ⟨a, tables, draft, faults, issued, hr, hok⟩
  · left
    rw [hr]
    exact ⟨why, faults, issued, Prod.ext hwhy rfl⟩
  · right
    rw [hr]
    exact ⟨a, tables, faults, issued, rfl, hok⟩

end Server
end Popularity
