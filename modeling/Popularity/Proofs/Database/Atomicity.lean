import Popularity.Proofs.Database.Transaction

/-!
# Writes that fail

A write fails just when one of its statements does, at whatever point that is and for whatever
reason: the server cannot be reached, a fault stops the statement, the data keeps it from being
done, or there is nothing to take one from. A write that succeeds has said all that it has to say.

## Main definitions

* `Statement.Unfit` — what the data keeps from being done
* `Script.statements` — all that a write has to say

## Main results

* `Server.failure?_of_unfit` — what the data keeps from being done fails
* `Script.said_ofWrite` — a write that succeeds has left nothing out
* `Server.serve_write_whole` — a write that fails has done nothing
-/

namespace Popularity

variable {α : Type}

/-! ### What the data refuses -/

namespace Statement

/-- The data keeps a statement from being done: an item is put whose kind is too long for the
tables, a counter would leave its range, or there is nothing to take one from. -/
def Unfit (t : Tables) : Statement → Prop
  | .add i k by_ => fit? i.kind = none ∨
      ∃ j row, fitItem i = .ok j ∧ t.counts.get? j = some row ∧ row.value.add? k by_ = none
  | .subtract i k => ∀ row, t.counts.get? i = some row → row.value.add? k (-1) = none
  | .mark _ i .. => fit? i.kind = none
  | _ => False

variable {t t' : Tables} {s : Statement} {i : Item} {now : Nat}

theorem fitItem_of_fit?_eq_none (h : fit? i.kind = none) : fitItem i = .error tooLong := by
  rw [fitItem, h]

theorem plus_of_add?_eq_none {n : Counts} {k : Counter} {by_ : Int64} (h : n.add? k by_ = none) :
    plus n k by_ = .error outOfRange := by
  rw [plus, h]

theorem Unfit.needsTables (h : Unfit t s) : s.needsTables = true := by
  cases s <;> first | rfl | exact h.elim

/-- What the data keeps from being done is refused, or it misses. -/
theorem Unfit.exec (h : Unfit t s) {a : s.Answer} (ha : s.exec now t = .ok (a, t')) :
    ∃ why, s.missed? a = some why := by
  unfold Statement.exec at ha
  split at ha
  · cases ha
  cases s with
  | add i k by_ =>
    rcases h with h | ⟨j, row, hj, hrow, hsum⟩
    · rw [effect, execAdd, fitItem_of_fit?_eq_none h] at ha
      cases ha
    · rw [effect, execAdd, hj] at ha
      dsimp only [bind, Except.bind] at ha
      rw [hrow] at ha
      dsimp only at ha
      rw [plus_of_add?_eq_none hsum] at ha
      cases ha
  | subtract i k =>
    rw [effect, execSubtract] at ha
    cases hrow : t.counts.get? i with
    | some row =>
      rw [hrow] at ha
      dsimp only [bind, Except.bind] at ha
      rw [plus_of_add?_eq_none (h row hrow)] at ha
      cases ha
    | none =>
      rw [hrow] at ha
      cases ha
      exact ⟨_, rfl⟩
  | mark m i user folder =>
    rw [effect, execMark, fitItem_of_fit?_eq_none h] at ha
    cases ha
  | _ => exact h.elim

end Statement

/-! ### Exchanges -/

namespace Server

variable {v v' : Server} {s : Statement} {t : Tables}

/-- A statement about the tables that is answered was done to the tables as it found them. -/
theorem send_eq_ok {a : s.Answer} (hs : s.needsTables = true) (h : (v.send s).1 = .ok a) :
    ∃ t t', v.current = some t ∧ s.exec v.clock t = .ok (a, t') := by
  rcases send_cases s v with ⟨why, faults, issued, hsend⟩ | ⟨b, v', faults, issued, he, hsend⟩
  · rw [hsend] at h
    cases h
  · rw [hsend] at h
    cases h
    obtain ⟨t, t', ht, hexec, -⟩ := execute_eq_ok hs he
    exact ⟨t, t', ht, hexec⟩

/-- The answers are the server's. -/
theorem answer_of_mem_exchanges {d : Dialogue Statement Statement.Answer α} {x : Exchange}
    (h : x ∈ v.exchanges d) : x.answer = (x.before.send x.statement).1 := by
  induction d generalizing v with
  | done a => cases h
  | ask s next ih =>
    rw [exchanges] at h
    rcases List.mem_cons.mp h with rfl | h
    · rfl
    · rcases hs : v.send s with ⟨why | a, v'⟩ <;> rw [hs] at h
      · cases h
      · exact ih a h

/-- A statement that the data keeps from being done fails, wherever it stands in a script. -/
theorem failure?_of_unfit {d : Dialogue Statement Statement.Answer α} {x : Exchange}
    (h : x ∈ v.exchanges d) (ht : x.before.current = some t) (hx : x.statement.Unfit t) :
    ∃ why, x.failure? = some why := by
  have hanswer := answer_of_mem_exchanges h
  unfold Exchange.failure?
  cases ha : x.answer with
  | error why => exact ⟨why.toStore, rfl⟩
  | ok a =>
    rw [ha] at hanswer
    obtain ⟨t₀, t', ht₀, hexec⟩ := send_eq_ok hx.needsTables hanswer.symm
    obtain rfl : t₀ = t := Option.some.inj (ht₀.symm.trans ht)
    exact hx.exec hexec

end Server

/-! ### All that is said -/

namespace Server

variable {v : Server} {s : Statement} {next : s.Answer → Dialogue Statement Statement.Answer α}
variable {a : α}

/-- What a script says, up to the first failure. -/
def said (d : Dialogue Statement Statement.Answer α) (v : Server) : List Statement :=
  (v.exchanges d).map (·.statement)

/-- A script that comes to its end has heard an answer to its first statement and gone on. -/
theorem said_ask (h : (v.converse (.ask s next)).1 = .ok a) :
    ∃ (b : s.Answer) (v' : Server), (v'.converse (next b)).1 = .ok a ∧
      v.said (.ask s next) = s :: v'.said (next b) := by
  rcases hs : v.send s with ⟨why | b, v'⟩
  · rw [converse_ask_error hs] at h
    cases h
  · rw [converse_ask_ok hs] at h
    refine ⟨b, v', h, ?_⟩
    rw [said, exchanges, hs]
    rfl

end Server

namespace Script

variable {v : Server} {m : Mark} {i : Item} {user folder : Int64} {b : Bool} {a : α}

/-- What is said about a mark; the counts follow only if it was turned. -/
def turning (turn count : Statement) (changed : Bool) : List Statement :=
  .begin_ :: turn :: (if changed then [count] else []) ++ [.commit]

/-- All that a write has to say, if it changes something and if not. -/
def statements : Write → Bool → List Statement
  | .read i, _ => [.add i .reads 1]
  | .readAll [], _ => []
  | .readAll is, _ => .begin_ :: (merged is).map (fun r => .add r.1 .reads r.2) ++ [.commit]
  | .like i user, changed => turning (.mark .like i user 0) (.add i .likes 1) changed
  | .unlike i user, changed => turning (.unmark .like i user) (.subtract i .likes) changed
  | .collect i user folder, changed =>
    turning (.mark .collection i user folder) (.add i .collects 1) changed
  | .uncollect i user _, changed =>
    turning (.unmark .collection i user) (.subtract i .collects) changed

theorem said_mark (h : (v.converse (mark m i user folder).run).1 = .ok (.ok b)) :
    v.said (mark m i user folder).run
      = turning (.mark m i user folder) (.add i m.counter 1) b := by
  rw [mark, run_transaction] at h ⊢
  obtain ⟨_, v₁, h₁, hbegin⟩ := Server.said_ask h
  obtain ⟨changed, v₂, h₂, hmark⟩ := Server.said_ask h₁
  cases changed with
  | false =>
    obtain ⟨_, v₃, h₃, hcommit⟩ := Server.said_ask h₂
    cases h₃
    exact hbegin.trans (congrArg _ (hmark.trans (congrArg _ hcommit)))
  | true =>
    obtain ⟨_, v₃, h₃, hadd⟩ := Server.said_ask h₂
    obtain ⟨_, v₄, h₄, hcommit⟩ := Server.said_ask h₃
    cases h₄
    exact hbegin.trans (congrArg _ (hmark.trans (congrArg _ (hadd.trans (congrArg _ hcommit)))))

theorem said_unmark (h : (v.converse (unmark m i user).run).1 = .ok (.ok b)) :
    v.said (unmark m i user).run = turning (.unmark m i user) (.subtract i m.counter) b := by
  rw [unmark, run_transaction] at h ⊢
  obtain ⟨_, v₁, h₁, hbegin⟩ := Server.said_ask h
  obtain ⟨changed, v₂, h₂, hunmark⟩ := Server.said_ask h₁
  cases changed with
  | false =>
    obtain ⟨_, v₃, h₃, hcommit⟩ := Server.said_ask h₂
    cases h₃
    exact hbegin.trans (congrArg _ (hunmark.trans (congrArg _ hcommit)))
  | true =>
    obtain ⟨found, v₃, h₃, hsubtract⟩ := Server.said_ask h₂
    cases found with
    | false =>
      -- the script has given up
      cases h₃
    | true =>
      obtain ⟨_, v₄, h₄, hcommit⟩ := Server.said_ask h₃
      cases h₄
      exact hbegin.trans
        (congrArg _ (hunmark.trans (congrArg _ (hsubtract.trans (congrArg _ hcommit)))))

/-- Reads are said one item after another. -/
theorem said_addAll {l : List (Item × Int64)}
    {next : Except StoreFailure Unit → Dialogue Statement Statement.Answer α}
    (h : (v.converse ((l.forM fun r => send (.add r.1 .reads r.2)).run.bind next)).1 = .ok a) :
    ∃ v' : Server, (v'.converse (next (.ok ()))).1 = .ok a ∧
      v.said ((l.forM fun r => send (.add r.1 .reads r.2)).run.bind next)
        = l.map (fun r => .add r.1 .reads r.2) ++ v'.said (next (.ok ())) := by
  induction l generalizing v with
  | nil => exact ⟨v, h, rfl⟩
  | cons r l ih =>
    obtain ⟨_, v₁, h₁, hadd⟩ := Server.said_ask h
    obtain ⟨v', h', hrest⟩ := ih h₁
    exact ⟨v', h', hadd.trans (congrArg _ hrest)⟩

/-- A list of reads statement by statement. -/
theorem run_readAll (i : Item) (is : List Item) :
    (ofWrite (.readAll (i :: is))).run = .ask .begin_ fun _ => (addReads (i :: is)).run.bind fun
      | .ok _ => .ask .commit fun _ => .done (.ok true)
      | .error why => .done (.error why) := by
  change (transaction (addReads (i :: is)) >>= fun _ => pure true).run = _
  rw [ExceptT.run_bind, run_transaction]
  change Dialogue.ask Statement.begin_ _ = _
  congr 1
  funext _
  refine (Dialogue.bind_assoc _ _ _).trans (congrArg _ (funext fun r => ?_))
  cases r <;> rfl

/-- **A write that succeeds has left nothing out.** -/
theorem said_ofWrite {w : Write} (h : (v.converse (ofWrite w).run).1 = .ok (.ok b)) :
    v.said (ofWrite w).run = statements w b := by
  cases w with
  | read i =>
    obtain ⟨_, v₁, h₁, hadd⟩ := Server.said_ask h
    cases h₁
    exact hadd
  | readAll is =>
    cases is with
    | nil => rfl
    | cons i is =>
      rw [run_readAll] at h ⊢
      obtain ⟨_, v₁, h₁, hbegin⟩ := Server.said_ask h
      obtain ⟨v₂, h₂, hadd⟩ := said_addAll h₁
      obtain ⟨_, v₃, h₃, hcommit⟩ := Server.said_ask h₂
      cases h₃
      rw [hcommit] at hadd
      exact hbegin.trans (congrArg _ hadd)
  | like i user => exact said_mark h
  | unlike i user => exact said_unmark h
  | collect i user folder => exact said_mark h
  | uncollect i user folder => exact said_unmark h

end Script

/-! ### Writes -/

namespace Server

theorem eq_of_settle_eq_ok {r : Except AccessFailure (Except StoreFailure α)} {a : α}
    (h : settle r = .ok a) : r = .ok (.ok a) := by
  rcases r with why | why | a'
  · cases h
  · cases h
  · cases h
    rfl

/-- **A write that fails has done nothing**, wherever it broke off and whatever broke it. It fails
just when one of its statements does, and if none does it has said all that it has to say; what the
data keeps from being done is such a failure, and if there is nothing to take one from, the failure
says so. All that is left of a write that fails is that time has gone on and that statements were
issued and faults met: the next script finds the tables as they were. -/
theorem serve_write_whole (v : Server) (w : Write) :
    let r := v.serve (Script.ofWrite w)
    let xs := v.transcript (Script.ofWrite w)
    (∀ why, r.1 = .error why ↔ ∃ x ∈ xs, x.failure? = some why) ∧
    (∀ b, r.1 = .ok b → xs.map (·.statement) = Script.statements w b) ∧
    (∀ why, r.1 = .error why →
      (∃ faults issued, r.2 = { v with clock := v.clock + 1, draft := none, faults, issued }) ∧
      r.2.tables = v.tables ∧ r.2.current = v.tables) ∧
    (∀ x ∈ xs, ∀ t, x.before.current = some t → x.statement.Unfit t →
      ∃ why, x.failure? = some why ∧ r.1 = .error why) ∧
    ∀ before i k answer t, ⟨before, .subtract i k, answer⟩ ∈ xs → before.current = some t →
      t.counts.get? i = none → (∃ why, answer = .error why) ∨
        r.1 = .error (.integrity ("active relation without aggregate for " ++ i.label)) := by
  have hiff := (Script.strict_ofWrite w).serve_eq_error_iff v
  refine ⟨hiff, ?_, ?_, ?_, ?_⟩
  · intro b hb
    rw [serve_eq] at hb
    exact Script.said_ofWrite (eq_of_settle_eq_ok hb)
  · intro why hwhy
    rcases serve_cases (Script.whole_ofWrite w) v with
      ⟨_, faults, issued, hr⟩ | ⟨a, tables, faults, issued, hr, -⟩
    · rw [hr]
      exact ⟨⟨faults, issued, rfl⟩, rfl, rfl⟩
    · rw [hr] at hwhy
      cases hwhy
  · intro x hx t ht hunfit
    obtain ⟨why, hwhy⟩ := failure?_of_unfit hx ht hunfit
    exact ⟨why, hwhy, (hiff why).mpr ⟨x, hx, hwhy⟩⟩
  · intro before i k answer t hx ht hrow
    have hanswer := answer_of_mem_exchanges hx
    cases answer with
    | error why => exact .inl ⟨why, rfl⟩
    | ok found =>
      obtain ⟨t₀, t', ht₀, hexec⟩ := send_eq_ok rfl hanswer.symm
      obtain rfl : t₀ = t := Option.some.inj (ht₀.symm.trans ht)
      obtain ⟨why, hwhy⟩ := Statement.Unfit.exec (s := .subtract i k)
        (fun row h => by rw [hrow] at h; cases h) hexec
      refine .inr ((hiff _).mpr ⟨_, hx, ?_⟩)
      cases found with
      | false => rfl
      | true => cases hwhy

/-- A like of a video that has no counts. -/
def astray : Server where
  tables := some { likes := [((⟨"video", 2⟩, 7), .new ⟨0, .active⟩ 0)] }

/-- The like is taken back before it is found that there is nothing to take one from, and it is in
force again afterwards. -/
theorem serve_write_whole_astray :
    (astray.serve (.ofWrite (.unlike ⟨"video", 2⟩ 7))).1
        = .error (.integrity "active relation without aggregate for video:2") ∧
      (astray.serve (.ofWrite (.unlike ⟨"video", 2⟩ 7))).2.current = astray.tables := by
  obtain ⟨-, -, hkept, -, hmissed⟩ := serve_write_whole astray (.unlike ⟨"video", 2⟩ 7)
  have herror := (hmissed _ _ _ _ _ (List.mem_of_getElem? (i := 2) rfl) rfl rfl).resolve_left nofun
  have hlabel : (⟨"video", 2⟩ : Item).label = "video:2" := by decide +kernel
  rw [hlabel] at herror
  exact ⟨herror, (hkept _ herror).2.2⟩

end Server

end Popularity
