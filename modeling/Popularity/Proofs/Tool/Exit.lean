import Popularity.Proofs.Background.Roster
import Popularity.Proofs.Engine.Endings
import Popularity.Proofs.Settings
import Popularity.Tool.Run

/-!
# How a run of the tool ends

A run waits for the background before it ends, for twice the time that a job may take. No time limit
that is accepted is so long that twice of it could not be told. And since no job is late after a
call, half of that wait is enough: the crew is at the end of its jobs, nothing is left to complain
of, and what the call came to is what the run comes to.

## Main definitions

* `Tool.Attended`, `Tool.Attends` — a call and the wait after it

## Main results

* `Tool.attends`
* `Tool.command_ok` — no command crashes
* `Tool.jobs_end`
-/

namespace Popularity.Tool

variable {C : Type} [CacheKind C]

/-! ### The wait -/

/-- Twice a time limit that is a word can be told. -/
theorem patience_eq {limit : Nat} (h : limit < Word.size64) : patience limit = .ok (2 * limit) := by
  have hlimit : ¬ longestSpan < 2 * limit := by
    unfold longestSpan
    unfold Word.size64 at h ⊢
    omega
  exact if_neg hlimit

theorem play_waitIdleWithin (time : Nat) (s : Scene Server C) :
    (Action.waitIdleWithin time : Act Server C Bool).play s =
      (.ok (World.upkeep.drainWithin time s).1, (World.upkeep.drainWithin time s).2) := rfl

theorem play_awaitJobs {s s' : Scene Server C} {time : Nat} (htime : patience s.1.limit = .ok time)
    (hidle : World.upkeep.drainWithin time s = (true, s')) :
    (awaitJobs : Act Server C Unit).play s = (.ok (), s') := by
  have hpatience : (liftM (patience s.1.limit) : Act Server C Nat).play s = (.ok time, s) :=
    congrArg (·, s) htime
  have hwait : (Action.waitIdleWithin time : Act Server C Bool).play s = (.ok true, s') := by
    rw [play_waitIdleWithin, hidle]
  rw [awaitJobs, Act.play_bind_ok Act.play_get, Act.play_bind_ok hpatience, Act.play_bind_ok hwait]
  rfl

/-- What is said of a result. -/
def saidOf : Except CallFailure Reply → List Report
  | .ok reply => reply.reports
  | .error _ => []

/-- A wait for the background after a call that came to a result: its length can be told, it is not
given up, no job is in hand after it, it takes no longer than one job may take, and the result is
the one of the call. -/
structure Attended (c : Call Reply) (s : Scene Server C) (result : Except CallFailure Reply)
    (called : Scene Server C) : Prop where
  patience_eq : patience s.1.limit = .ok (2 * s.1.limit)
  idle : World.upkeep.drainWithin (2 * s.1.limit) called = (true, World.upkeep.drain called)
  inflight : (World.upkeep.drain called).1.inflight = 0
  now : (World.upkeep.drain called).1.now ≤ called.1.now + s.1.limit
  play_eq : (attend c).play s = (.ok result, World.upkeep.drain called)

/-- A call that is attended to: the background is waited for unless the call crashes. -/
def Attends (c : Call Reply) (s : Scene Server C) : Prop :=
  match (Server.site.call c).play s with
  | (.ok result, called) => Attended c s result (called.1, called.2.tell (saidOf result))
  | (.error crash, called) => (attend c).play s = (.error crash, called)

/-- **The background is waited for** after a call that came to a result, whatever kind of cache is
kept and whatever troubles its jobs meet. -/
theorem attended_of_call {limit : Nat} (hpos : 0 < limit) (hlimit : limit < Word.size64)
    {c : Call Reply} {w : World Server C} {result : Except CallFailure Reply}
    {called : Scene Server C}
    (hcall : (Server.site.call c).play ({ limit }, w) = (.ok result, called)) :
    Attended c ({ limit }, w) result (called.1, called.2.tell (saidOf result)) := by
  have htimely := Server.site.timely_call c ({ limit }, w) nofun
  have hlimit_eq := Server.site.limit_run c.run ({ limit }, w)
  rw [hcall] at htimely
  rw [← Site.call, hcall] at hlimit_eq
  dsimp only at htimely hlimit_eq
  let told : Scene Server C := (called.1, called.2.tell (saidOf result))
  have htold : Craft.Timely told := htimely
  have htwice : told.1.limit < 2 * limit := by
    rw [hlimit_eq]
    omega
  have hidle : World.upkeep.drainWithin (2 * limit) told = (true, World.upkeep.drain told) :=
    htold.drainWithin_eq htwice
  have hnow := htold.drain_now_le (k := World.upkeep)
  rw [hlimit_eq] at hnow
  have hpatience : patience told.1.limit = .ok (2 * limit) := by
    rw [hlimit_eq]
    exact patience_eq hlimit
  have hawait := play_awaitJobs hpatience hidle
  refine ⟨patience_eq hlimit, hidle, Craft.inflight_drain, hnow, ?_⟩
  rw [attend, Act.play_bind_ok hcall]
  cases result with
  | ok reply =>
    have hsay : (say reply.reports : Act Server C Unit).play called = (.ok (), told) := rfl
    exact (Act.play_bind_ok hsay).trans (Act.play_bind_ok hawait)
  | error why =>
    have hsame : told = called := by simp [told, saidOf, World.tell]
    change _ = (_, World.upkeep.drain told)
    rw [hsame] at hawait ⊢
    exact Act.play_bind_ok hawait

theorem attends {limit : Nat} (hpos : 0 < limit) (hlimit : limit < Word.size64) (c : Call Reply)
    (w : World Server C) : Attends c ({ limit }, w) := by
  unfold Attends
  split
  next hcall => exact attended_of_call hpos hlimit hcall
  next hcall => rw [attend, Act.play_bind, hcall]

/-! ### The commands -/

/-- What is printed of an answer. -/
def printed : Service.Answer → Reply
  | .summary s => .printed s.toJson
  | .byId t => .ofTable t
  | _ => .printed .null

theorem bind_pure_eq_map_map {α : Type} (c : Call α) {g : α → Service.Answer}
    {f : Service.Answer → Reply} {h : α → Reply} (hf : ∀ a, f (g a) = h a) :
    (c >>= fun a => pure (h a)) = f <$> g <$> c := by
  rw [bind_pure_comp, Functor.map_map]
  exact congrArg (· <$> c) (funext fun a => (hf a).symm)

/-- A command that has to do with the service is an order, whose answer is put into a reply. -/
theorem exists_order {c : Command} {call : Call Reply} (h : c.call? = some call) :
    ∃ (o : Service.Order) (f : Service.Answer → Reply), call = f <$> o.call := by
  have hwrite (w : Write) (reply : Reply) : ∃ (o : Service.Order) (f : Service.Answer → Reply),
      (Service.perform w >>= fun _ => pure reply) = f <$> o.call :=
    ⟨.record w, fun _ => reply, bind_pure_eq_map_map _ fun _ => rfl⟩
  cases c with
  | migrate => cases h
  | showItem i user =>
    cases user with
    | none => cases h; exact ⟨.counts i, printed, bind_pure_eq_map_map _ fun _ => rfl⟩
    | some user => cases h; exact ⟨.summary i user, printed, bind_pure_eq_map_map _ fun _ => rfl⟩
  | read i => cases h; exact hwrite _ _
  | like i user => cases h; exact hwrite _ _
  | unlike i user => cases h; exact hwrite _ _
  | collect i user folder => cases h; exact hwrite _ _
  | uncollect i user folder => cases h; exact hwrite _ _
  | stats kind ids => cases h; exact ⟨.byId kind ids, printed, bind_pure_eq_map_map _ fun _ => rfl⟩

/-- **Every command of a run gets its result**, be it a failure. -/
theorem command_ok {c : Command} {call : Call Reply} (h : c.call? = some call) (settings : Settings)
    (v : Server) : ∃ result, ((Server.site.call call).play (scene settings v)).1 = .ok result := by
  obtain ⟨o, f, rfl⟩ := exists_order h
  obtain ⟨r, hr⟩ := Server.site.call_ok o settings.timeout 0 v settings.cacheOptions
  refine ⟨f <$> r, ?_⟩
  rw [Site.play_call_map, Act.play_map, scene, hr]
  rfl

/-- What a run makes of the result of its call. -/
def served : Except CallFailure Reply → Except ToolFailure (Option String)
  | .ok reply => .ok reply.output
  | .error why => .error (.call why)

theorem serveCall_result {settings : Settings} {c : Call Reply} {h : Host}
    {result : Except CallFailure Reply} {s : Scene Server (Option Cache)}
    (hplay : (attend c).play (scene settings h.server) = (.ok result, s)) :
    (serveCall settings c h).result = served result := by
  have hrun : ((attend c).run (scene settings h.server)).run = (.ok result, s) := hplay
  unfold serveCall
  rw [hrun]
  cases result <;> rfl

/-- The store is left as it is after the call. -/
theorem serveCall_host {settings : Settings} {c : Call Reply} {h : Host}
    {result : Except CallFailure Reply} {s : Scene Server (Option Cache)}
    (hplay : (attend c).play (scene settings h.server) = (.ok result, s)) :
    (serveCall settings c h).host = { h with server := s.2.store } := by
  have hrun : ((attend c).run (scene settings h.server)).run = (.ok result, s) := hplay
  unfold serveCall
  rw [hrun]

/-- **Jobs are independent, bounded and waited for.** What becomes of a crew is known from its
roster alone, and later jobs change nothing in it. With settings that are accepted, the jobs that
any call leaves are at their end within one time limit after it, in which the tool waits for them
and for nothing else; a command of the tool does not crash, and its result is the result of its
call. -/
theorem jobs_end :
    (∀ {J P S : Type} {k : Craft J P S} (p : k.Plan) (limit : Nat) (s₀ : S) (h : Shift J),
      p.Outcome limit s₀ h ∧ ∀ later : Shift J, h.roster <+: Shift.roster (later ++ h)) ∧
    ∀ {surroundings : Surroundings} {i : Invocation} {settings : Settings},
      surroundings.load i = .ok settings →
      (∀ {C : Type} [CacheKind C] (c : Call Reply) (w : World Server C),
        Attends c ({ limit := settings.timeout }, w)) ∧
      ∀ {c : Command} {call : Call Reply}, c.call? = some call → ∀ h : Host,
        ∃ result, ((Server.site.call call).play (scene settings h.server)).1 = .ok result ∧
          (serveCall settings call h).result = served result := by
  refine ⟨fun p limit s₀ h => ⟨p.outcome limit s₀ h, fun later => Shift.roster_prefix later h⟩, ?_⟩
  intro surroundings i settings hload
  obtain ⟨hpos, hlimit⟩ := surroundings.timeout_of_load hload
  refine ⟨fun c w => attends hpos hlimit c w, ?_⟩
  intro c call hcall h
  obtain ⟨result, hresult⟩ := command_ok hcall settings h.server
  have hattended := attended_of_call hpos hlimit (Prod.ext hresult rfl)
  exact ⟨result, hresult, serveCall_result hattended.play_eq⟩

/-- A crew with a limit of 10 that is given one job that needs just that, one that needs more, and
later one that never ends; and a run with the largest limit that can be set. -/
theorem jobs_end_three :
    let h : Shift Errand :=
      [.left ⟨"c", none, .ok⟩, .passed 5, .left ⟨"b", some 11, .ok⟩, .left ⟨"a", some 10, .crashed⟩]
    (Errand.craft.settle (Errand.craft.after ({ limit := 10 }, {}) h)).1.inflight = 3 ∧
    (Errand.craft.drain (Errand.craft.after ({ limit := 10 }, {}) h)).1.now = 15 ∧
    ∃ settings call,
      Surroundings.load {}
        { command := .read ⟨"article", 1⟩
          overrides := { backgroundTimeout := some 18446744073709551615 } } = .ok settings ∧
      settings.timeout = 18446744073709551615 ∧
      Command.call? (.read ⟨"article", 1⟩) = some call ∧
      ∃ result,
        (serveCall settings call { address := "", server := {} }).result = served result := by
  intro h
  have hcrew := (jobs_end.1 Errand.plan 10 {} h).1
  obtain ⟨settings, hload, htimeout⟩ : ∃ settings, Surroundings.load {}
      { command := .read ⟨"article", 1⟩
        overrides := { backgroundTimeout := some 18446744073709551615 } } = .ok settings ∧
      settings.timeout = 18446744073709551615 := ⟨_, rfl, rfl⟩
  obtain ⟨call, hcall⟩ : ∃ call, Command.call? (.read ⟨"article", 1⟩) = some call := ⟨_, rfl⟩
  obtain ⟨result, -, hresult⟩ := (jobs_end.2 hload).2 hcall { address := "", server := {} }
  exact ⟨hcrew.settled.1.trans (by decide), hcrew.drained.2.1.trans (by decide), settings, call,
    hload, htimeout, hcall, result, hresult⟩

end Popularity.Tool
