import Popularity.Proofs.Database.Calm
import Popularity.Proofs.Engine.Unconsulted
import Popularity.Proofs.Tool.Exit

/-!
# Runs one after another

Every run of the tool begins with an empty cache and makes one call, so what it comes to can be told
from the server alone: how the cache is set up, and how long jobs may take, make no difference to
its result, its exit code or the server. All that a run leaves to the next one is what it has done
to the server, and it does that script by script.

## Main definitions

* `Tool.plain` — what a command comes to, by the server alone
* `Tool.Launch`, `Tool.Launch.go` — a run to be made, and what is seen of it
* `Tool.launchAll` — runs one after another

## Main results

* `Tool.serveCall_eq`, `Tool.serve_eq_plain`
* `Tool.Launch.Accepted.go_eq`
* `Tool.launchAll_induction` — what no script can break holds after any runs
-/

namespace Popularity

/-! ### Commands by the server alone -/

namespace Tool

/-- No command asks the cache after it has left a job. -/
theorem unconsulted_of_call? {c : Command} {call : Call Reply} (h : c.call? = some call) :
    Call.Unconsulted call.run := by
  obtain ⟨o, f, rfl⟩ := exists_order h
  exact o.unconsulted.map f

/-- **What a call of the tool comes to** is what the server makes it come to. -/
theorem serveCall_eq {settings : Settings} (hpos : 0 < settings.timeout)
    (hlimit : settings.timeout < Word.size64) {call : Call Reply}
    (hcall : Call.Unconsulted call.run) (h : Host) :
    (serveCall settings call h).result = served (Server.site.told call.run h.server).1 ∧
      (serveCall settings call h).host
        = { h with server := (Server.site.told call.run h.server).2 } := by
  have hempty : ∀ c ∈ settings.cacheOptions.build?, c.entries = [] := by
    intro c hc
    unfold Cache.Options.build? at hc
    split at hc <;> cases hc
    rfl
  obtain ⟨called, hplay, hstore⟩ := Server.site.play_run_of_unconsulted hempty hcall
    (s := scene settings h.server) ⟨[], [], rfl⟩
  have hattended := attended_of_call hpos hlimit hplay
  refine ⟨serveCall_result hattended.play_eq, ?_⟩
  -- the jobs that are waited for are about the cache, so the store is as the call left it
  rw [serveCall_host hattended.play_eq, steady_drain.store_eq]
  exact congrArg (fun v => { h with server := v }) hstore

/-- What a command comes to with a server under a URL, and what becomes of the server. -/
def plain (url : Option String) (c : Command) (h : Host) :
    Except ToolFailure (Option String) × Host :=
  match url with
  | none => (.error (.setup (.configuration "database url is not configured")), h)
  | some url =>
    match h.reach url with
    | (.error why, h) => (.error (.setup (.database why.message)), h)
    | (.ok (), h) =>
      match c.call? with
      | none => ((serveMigrate h).result, (serveMigrate h).host)
      | some call =>
        (served (Server.site.told call.run h.server).1,
          { h with server := (Server.site.told call.run h.server).2 })

/-- Accepted settings matter to a command by their URL only. -/
theorem serve_eq_plain {s : Surroundings} {i : Invocation} {settings : Settings}
    (hload : s.load i = .ok settings) (c : Command) (h : Host) :
    ((serve settings c h).result, (serve settings c h).host) = plain settings.url c h := by
  obtain ⟨hpos, hlimit⟩ := s.timeout_of_load hload
  unfold serve plain
  cases settings.url with
  | none => rfl
  | some url =>
    dsimp only
    rcases h.reach url with ⟨why | ⟨⟩, h'⟩
    · rfl
    · dsimp only
      cases hc : c.call? with
      | none => rfl
      | some call =>
        obtain ⟨hresult, hhost⟩ := serveCall_eq hpos hlimit (unconsulted_of_call? hc) h'
        exact Prod.ext hresult hhost

/-! ### Runs -/

/-- What a run shows to whoever started it: its exit code and what it prints. -/
def Outcome.seen (o : Outcome) : Nat × Option String := (o.exitCode, o.output)

/-- What is seen of a result. -/
def seenOf : Except ToolFailure (Option String) → Nat × Option String
  | .ok output => (0, output)
  | .error why => (why.exitCode, none)

theorem seen_finish (line : Event → Option LogLine) (v : Served) :
    (finish line v).seen = seenOf v.result := by
  unfold finish
  dsimp only
  split
  next h => rw [h]; rfl
  next h => rw [h]; rfl

/-- A run to be made. -/
structure Launch where
  args : List String
  surroundings : Surroundings
  deriving Repr, Inhabited

namespace Launch

/-- Whether a run gets its command and its settings. -/
structure Accepted (l : Launch) (i : Invocation) (settings : Settings) : Prop where
  parse_eq : Invocation.parse l.args l.surroundings.configFile? = .ok i
  load_eq : l.surroundings.load i = .ok settings

/-- Makes a run. -/
def go (l : Launch) (h : Host) : (Nat × Option String) × Host :=
  let (o, h) := run l.args l.surroundings h
  (o.seen, h)

/-- A run that is accepted comes to what its command comes to. -/
theorem Accepted.go_eq {l : Launch} {i : Invocation} {settings : Settings}
    (hl : l.Accepted i settings) (h : Host) :
    l.go h = (seenOf (plain settings.url i.command h).1, (plain settings.url i.command h).2) := by
  have hplain := serve_eq_plain hl.load_eq i.command h
  rw [← hplain, ← seen_finish, go, run, hl.parse_eq]
  dsimp only
  rw [hl.load_eq]

end Launch

/-- Makes runs one after another. -/
def launchAll : List Launch → Host → List (Nat × Option String) × Host
  | [], h => ([], h)
  | l :: ls, h => ((l.go h).1 :: (launchAll ls (l.go h).2).1, (launchAll ls (l.go h).2).2)

/-! ### What runs leave -/

theorem serveMigrate_host (h : Host) :
    (serveMigrate h).host = { h with server := h.server.migrate.2 } := by
  unfold serveMigrate
  rcases h.server.migrate with ⟨why | ⟨⟩, v⟩ <;> rfl

section Induction

variable {motive : Server → Prop}
  (hrun : ∀ {α : Type} (script : Script α) v, motive v → motive (v.run script).2)

include hrun

/-- A run does nothing to the server but to send it scripts, and leaves it at its address. -/
theorem reach_induction (url : String) {h : Host} (hh : motive h.server) :
    motive (h.reach url).2.server ∧ (h.reach url).2.address = h.address := by
  unfold Host.reach
  cases h.connect url with
  | error why => exact ⟨hh, rfl⟩
  | ok => exact ⟨hrun (Script.send .ping) h.server hh, rfl⟩

theorem plain_induction {url : Option String} {c : Command} {h : Host} (hh : motive h.server) :
    motive (plain url c h).2.server ∧ (plain url c h).2.address = h.address := by
  unfold plain
  cases url with
  | none => exact ⟨hh, rfl⟩
  | some url =>
    dsimp only
    -- the host that is reached has been sent a script already, whether it answered or not
    have hreach := reach_induction hrun url hh
    generalize h.reach url = r at hreach ⊢
    obtain ⟨why | ⟨⟩, h'⟩ := r
    · exact hreach
    · dsimp only at hreach ⊢
      cases c.call? with
      | none =>
        rw [serveMigrate_host]
        exact ⟨hrun (Script.migrate h'.server.tables.isSome) h'.server hreach.1, hreach.2⟩
      | some call =>
        have hserve (r : Request) (v : Server) (hv : motive v) :
            motive (Server.site.answer r v).2 := by
          change motive (v.serve (.ofRequest r)).2
          rw [Server.serve_eq]
          exact hrun (.ofRequest r) v hv
        exact ⟨Site.told_induction hserve call.run hreach.1, hreach.2⟩

theorem go_induction (l : Launch) {h : Host} (hh : motive h.server) :
    motive (l.go h).2.server ∧ (l.go h).2.address = h.address := by
  unfold Launch.go run
  cases Invocation.parse l.args l.surroundings.configFile? with
  | error why => exact ⟨hh, rfl⟩
  | ok i =>
    dsimp only
    cases hload : l.surroundings.load i with
    | error why => exact ⟨hh, rfl⟩
    | ok settings =>
      have hhost : (serve settings i.command h).host = (plain settings.url i.command h).2 :=
        congrArg Prod.snd (serve_eq_plain hload i.command h)
      dsimp only
      rw [hhost]
      exact plain_induction hrun hh

/-- **Whatever becomes of the runs**, what no script can break holds of the server at their end, and
its address is the same. -/
theorem launchAll_induction (ls : List Launch) {h : Host} (hh : motive h.server) :
    motive (launchAll ls h).2.server ∧ (launchAll ls h).2.address = h.address := by
  induction ls generalizing h with
  | nil => exact ⟨hh, rfl⟩
  | cons l ls ih =>
    obtain ⟨hgo, haddress⟩ := go_induction hrun l hh
    obtain ⟨hlast, hsame⟩ := ih hgo
    exact ⟨hlast, hsame.trans haddress⟩

end Induction

theorem calm_launchAll (ls : List Launch) {h : Host} (hcalm : h.server.Calm) :
    (launchAll ls h).2.server.Calm :=
  (launchAll_induction (fun script _ hv => hv.run script) ls hcalm).1

theorem address_launchAll (ls : List Launch) (h : Host) :
    (launchAll ls h).2.address = h.address :=
  (launchAll_induction (motive := fun _ => True) (fun _ _ _ => trivial) ls trivial).2

end Tool

end Popularity
