import Popularity.Database.Server

/-!
# What a script hears

A script talks to the server statement by statement. Each statement is answered or it fails, and a
failure is the end of the talk. One sort of answer is as bad as a failure: that there was no row to
take one from, although a mark said that there is one.

All scripts that write are strict. They give up as soon as a statement has failed or has found
nothing to take from, they say which it was, and they give up for no other reason. So what comes of
a write is known from the exchanges with the server.

## Main definitions

* `Server.converse` — a script at work, statement by statement
* `Exchange`, `Exchange.failure?`, `Server.transcript`
* `Script.Strict`

## Main results

* `Script.Strict.bind`, `Script.strict_ofWrite`
* `Script.Strict.serve_eq_error_iff` — a strict script fails just when an exchange does, and in the
  same way
-/

namespace Popularity

variable {α β : Type}

/-! ### Exchanges -/

/-- What an answer says has gone wrong: there is no row to take one from. -/
def Statement.missed? : (s : Statement) → s.Answer → Option StoreFailure
  | .subtract i _, found => if found then none else some (Script.withoutCounts i)
  | _, _ => none

/-- A statement and what became of it. -/
structure Exchange where
  /-- The server as the statement found it. -/
  before : Server
  statement : Statement
  answer : Except AccessFailure statement.Answer

/-- The failure of a statement. -/
def Exchange.failure? (x : Exchange) : Option StoreFailure :=
  match x.answer with
  | .error why => some why.toStore
  | .ok a => x.statement.missed? a

namespace Server

variable {v v' : Server} {s : Statement} {next : s.Answer → Dialogue Statement Statement.Answer α}

/-- Sends a script's statements one after another, until one of them fails. -/
def converse (d : Dialogue Statement Statement.Answer α) (v : Server) :
    Except AccessFailure α × Server :=
  (Dialogue.run (m := Session) send d).run v

@[simp] theorem converse_done (a : α) : v.converse (.done a) = (.ok a, v) := rfl

theorem converse_ask_ok {a : s.Answer} (h : v.send s = (.ok a, v')) :
    v.converse (.ask s next) = v'.converse (next a) := by
  change ExceptT.bindCont (m := StateM Server) (fun a => Dialogue.run (m := Session) send (next a))
    (v.send s).1 (v.send s).2 = _
  rw [h]
  rfl

theorem converse_ask_error {why : AccessFailure} (h : v.send s = (.error why, v')) :
    v.converse (.ask s next) = (.error why, v') := by
  change ExceptT.bindCont (m := StateM Server) (fun a => Dialogue.run (m := Session) send (next a))
    (v.send s).1 (v.send s).2 = _
  rw [h]
  rfl

/-- One part of a script after another. -/
theorem converse_bind (d : Dialogue Statement Statement.Answer α)
    (f : α → Dialogue Statement Statement.Answer β) (v : Server) :
    v.converse (d >>= f) = match v.converse d with
      | (.ok a, v') => v'.converse (f a)
      | (.error why, v') => (.error why, v') := by
  change v.converse (d.bind f) = _
  induction d generalizing v with
  | done a => rfl
  | ask s next ih =>
    rw [Dialogue.ask_bind]
    rcases hs : v.send s with ⟨why | a, v'⟩
    · rw [converse_ask_error hs, converse_ask_error hs]
    · rw [converse_ask_ok hs, converse_ask_ok hs]
      exact ih a v'

/-- The exchanges of a script, up to the first failure. -/
def exchanges : Dialogue Statement Statement.Answer α → Server → List Exchange
  | .done _, _ => []
  | .ask s next, v =>
    ⟨v, s, (v.send s).1⟩ :: match v.send s with
      | (.ok a, v') => exchanges (next a) v'
      | (.error _, _) => []

/-- The exchanges of a script that is run. -/
def transcript (script : Script α) (v : Server) : List Exchange :=
  exchanges script.run { v with clock := v.clock + 1 }

/-- What a script comes to, whether it fails by itself or by the server. -/
def settle : Except AccessFailure (Except StoreFailure α) → Except StoreFailure α
  | .ok result => result
  | .error why => .error why.toStore

theorem run_eq (script : Script α) (v : Server) :
    v.run script
      = ((({ v with clock := v.clock + 1 } : Server).converse script.run).1,
        { (({ v with clock := v.clock + 1 } : Server).converse script.run).2 with
          draft := none }) := rfl

theorem serve_eq (script : Script α) (v : Server) :
    v.serve script
      = (settle (({ v with clock := v.clock + 1 } : Server).converse script.run).1,
        { (({ v with clock := v.clock + 1 } : Server).converse script.run).2 with
          draft := none }) := by
  rw [serve, run_eq]
  cases (({ v with clock := v.clock + 1 } : Server).converse script.run).1 <;> rfl

end Server

/-! ### Strict scripts -/

namespace Script

/-- Gives up as soon as a statement has found nothing to take from, and for no other reason. -/
def Strict : Dialogue Statement Statement.Answer (Except StoreFailure α) → Prop
  | .done r => ∃ a, r = .ok a
  | .ask s next => ∀ a, (∀ why, s.missed? a = some why → next a = .done (.error why)) ∧
      (s.missed? a = none → Strict (next a))

theorem strict_pure (a : α) : Strict (pure a : Script α).run := ⟨a, rfl⟩

/-- All statements but one sort cannot miss. -/
theorem strict_send {s : Statement} (h : ∀ a, s.missed? a = none) : Strict (send s).run := by
  intro a
  constructor
  · intro why hwhy
    rw [h a] at hwhy
    cases hwhy
  · intro _
    exact ⟨a, rfl⟩

theorem Strict.bind {x : Script α} {f : α → Script β} (hx : Strict x.run)
    (hf : ∀ a, Strict (f a).run) : Strict (x >>= f).run := by
  rw [ExceptT.run_bind]
  change Strict (Dialogue.bind _ _)
  generalize x.run = d at hx
  induction d with
  | done r =>
    obtain ⟨a, rfl⟩ := hx
    exact hf a
  | ask s next ih =>
    intro a
    constructor
    · intro why hwhy
      change Dialogue.bind (next a) _ = _
      rw [(hx a).1 why hwhy]
      rfl
    · intro hnone
      exact ih a ((hx a).2 hnone)

theorem strict_forM {ι : Type} {is : List ι} {f : ι → Script Unit} (hf : ∀ i, Strict (f i).run) :
    Strict (is.forM f).run := by
  induction is with
  | nil => exact strict_pure ()
  | cons i is ih => exact (hf i).bind fun _ => ih

theorem strict_transaction {body : Script α} (h : Strict body.run) :
    Strict (transaction body).run :=
  (strict_send fun _ => rfl).bind fun _ =>
    h.bind fun a => (strict_send fun _ => rfl).bind fun _ => strict_pure a

theorem strict_mark (m : Mark) (i : Item) (user folder : Int64) :
    Strict (mark m i user folder).run := by
  refine strict_transaction ((strict_send fun _ => rfl).bind fun changed => ?_)
  cases changed with
  | true => exact (strict_send fun _ => rfl).bind fun _ => strict_pure true
  | false => exact strict_pure false

/-- To take a mark back is the only write that may miss. -/
theorem strict_unmark (m : Mark) (i : Item) (user : Int64) : Strict (unmark m i user).run := by
  refine strict_transaction ((strict_send fun _ => rfl).bind fun changed => ?_)
  cases changed with
  | false => exact strict_pure false
  | true =>
    intro found
    cases found with
    | true => exact ⟨nofun, fun _ => strict_pure true⟩
    | false => exact ⟨fun why hwhy => by cases hwhy; rfl, nofun⟩

/-- **All writes are strict.** -/
theorem strict_ofWrite (w : Write) : Strict (ofWrite w).run := by
  cases w with
  | read i => exact (strict_send fun _ => rfl).bind fun _ => strict_pure true
  | readAll is =>
    cases is with
    | nil => exact strict_pure true
    | cons i is =>
      have hadd : Strict (addReads (i :: is)).run :=
        strict_forM fun r => strict_send fun _ => rfl
      exact (strict_transaction hadd).bind fun _ => strict_pure true
  | like i user => exact strict_mark .like i user 0
  | unlike i user => exact strict_unmark .like i user
  | collect i user folder => exact strict_mark .collection i user folder
  | uncollect i user folder => exact strict_unmark .collection i user

/-- **A strict script fails just when an exchange does, and in the same way.** -/
theorem Strict.settle_eq_error_iff {d : Dialogue Statement Statement.Answer (Except StoreFailure α)}
    (h : Strict d) (v : Server) (why : StoreFailure) :
    Server.settle (v.converse d).1 = .error why ↔
      ∃ x ∈ v.exchanges d, x.failure? = some why := by
  induction d generalizing v with
  | done r =>
    obtain ⟨a, rfl⟩ := h
    simp [Server.settle, Server.exchanges]
  | ask s next ih =>
    simp only [Server.exchanges, List.mem_cons, exists_eq_or_imp]
    rcases hs : v.send s with ⟨failure | a, v'⟩
    · rw [Server.converse_ask_error hs]
      simp [Server.settle, Exchange.failure?]
    · rw [Server.converse_ask_ok hs]
      have hfailure : (⟨v, s, .ok a⟩ : Exchange).failure? = s.missed? a := rfl
      rw [hfailure]
      cases ha : s.missed? a with
      | some why' =>
        have hnext : next a = .done (.error why') := (h a).1 why' ha
        simp [hnext, Server.settle, Server.exchanges]
      | none =>
        rw [ih a ((h a).2 ha) v']
        simp

theorem Strict.serve_eq_error_iff {script : Script α} (h : Strict script.run) (v : Server)
    (why : StoreFailure) :
    (v.serve script).1 = .error why ↔ ∃ x ∈ v.transcript script, x.failure? = some why := by
  rw [Server.serve_eq]
  exact h.settle_eq_error_iff _ why

end Script

end Popularity
