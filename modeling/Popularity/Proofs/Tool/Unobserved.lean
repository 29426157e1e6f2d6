import Popularity.Proofs.Database.Bulk
import Popularity.Proofs.Database.Lasting
import Popularity.Proofs.Settings.Layers
import Popularity.Proofs.Tool.Launch

/-!
# The tool does not show its cache

How the cache is set up, and how long jobs may take, can be told neither from what a run prints nor
from its exit code, nor from the database: the same statements reach the server in the same order,
and leave the same tables. It is otherwise with the log, which says what the cache was asked for.

So it does not matter either what was run before, but for what that left in the tables: an item is
shown as they have it.

## Main definitions

* `Settings.AlikeButCache`, `Tool.Launch.Alike` — the same settings, those of the cache and of the
  background apart
* `Tables.summary`, `Tables.showing` — an item as some tables have it, and what is shown of it

## Main results

* `Tool.Launch.Alike.go_eq`, `Tool.launchAll_eq`
* `Server.Calm.told_summary`, `Tool.plain_showItem`
* `Tool.cache_unobserved`
-/

namespace Popularity

/-! ### Settings of the cache -/

/-- Settings that differ at most in those of the cache and of the background. -/
structure Settings.AlikeButCache (s s' : Settings) : Prop where
  threshold_eq : s.threshold = s'.threshold
  format_eq : s.format = s'.format
  url_eq : s.url = s'.url
  maxConnections_eq : s.maxConnections = s'.maxConnections

namespace Tool

/-- Runs of one command whose settings differ at most in those of the cache and of the
background. -/
def Launch.Alike (l l' : Launch) : Prop :=
  ∃ i settings i' settings', l.Accepted i settings ∧ l'.Accepted i' settings' ∧
    i.command = i'.command ∧ settings.AlikeButCache settings'

/-- **Two such runs** show the same, and do the same to the server. -/
theorem Launch.Alike.go_eq {l l' : Launch} (hl : l.Alike l') (h : Host) : l.go h = l'.go h := by
  obtain ⟨i, settings, i', settings', hi, hi', hcommand, halike⟩ := hl
  rw [hi.go_eq h, hi'.go_eq h, hcommand, halike.url_eq]

theorem launchAll_eq {ls ls' : List Launch} (hls : List.Forall₂ Launch.Alike ls ls') (h : Host) :
    launchAll ls h = launchAll ls' h := by
  induction hls generalizing h with
  | nil => rfl
  | cons hl _ ih => rw [launchAll, launchAll, hl.go_eq h, ih]

end Tool

/-! ### What is shown -/

namespace Service

/-- What is made of the counts that the store has, or has not. -/
def counted (i : Item) : Except StoreFailure (Option Counts) → Except CallFailure Counts
  | .ok (some n) => .ok n
  | .ok none => .error (.uncounted i)
  | .error why => .error (.store why)

theorem exists_run_fetch (i : Item) : ∃ next, (fetch i).run = .ask (.store (.counts i)) next ∧
    ∀ x, (next x).Meets (fun q => q.isAside = true) (fun _ _ => True) (· = counted i x) := by
  refine ⟨_, rfl, fun x => ?_⟩
  rcases x with why | _ | n
  · rfl
  · rfl
  · exact ⟨rfl, fun _ _ => rfl⟩

end Service

namespace Site

variable {S : Type}

/-- The counts are as the store has them. -/
theorem told_counts (site : Site S) (i : Item) (within : List Span) (v : S) :
    site.told (Service.counts i within).run v
      = (Service.counted i (site.answer (.counts i) v).1, (site.answer (.counts i) v).2) := by
  have hmissed : site.told (Service.counts i within).run v = site.told (Service.fetch i).run v :=
    rfl
  obtain ⟨next, hrun, hnext⟩ := Service.exists_run_fetch i
  rw [hmissed, hrun]
  exact site.told_aside (hnext (site.answer (.counts i) v).1) _

/-- Each mark is in force just if the store says so. -/
theorem told_flagged (site : Site S) (i : Item) (user : Int64) (n : Counts) (v : S) :
    (site.told (flagged i user n).run v).1 = .ok ⟨i, n,
      decide ((site.answer (.marked .like i user) v).1 = .ok true),
      decide ((site.answer (.marked .collection i user)
        (site.answer (.marked .like i user) v).2).1 = .ok true)⟩ := by
  obtain ⟨next, hrun, hnext⟩ := exists_run_flagged i user n
  rw [hrun]
  exact congrArg Prod.fst (site.told_aside (hnext (site.bare (.marks i user) v).1) _)

end Site

/-- An item as some tables have it, for a user or for nobody in particular. -/
def Tables.summary (t : Tables) (i : Item) (user : Option Int64) : Except CallFailure Summary :=
  if storable i.kind then
    match t.counts.get? i with
    | some row => .ok
      { item := i
        counts := row.value
        liked := user.any fun user => (t.active? .like (i, user)).isSome
        collected := user.any fun user => (t.active? .collection (i, user)).isSome }
    | none => .error (.uncounted i)
  else .error (.store Server.unstorable)

/-- What is shown of an item that is as some tables have it. -/
def Tables.showing (t : Tables) (i : Item) (user : Option Int64) :
    Except ToolFailure (Option String) :=
  match t.summary i user with
  | .ok s => .ok (some s.toJson.prettyText)
  | .error why => .error (.call why)

namespace Server

variable {v : Server} {t : Tables}

theorem Calm.rested (h : v.Calm) (ht : v.tables = some t) : v.Rested :=
  ⟨h.draft, by rw [ht]; rfl⟩

/-- To ask a calm server for something leaves it calm, and its tables as they are. -/
theorem Calm.answer (h : v.Calm) (ht : v.tables = some t) {r : Request} (hr : ∀ w, r ≠ .write w) :
    (site.answer r v).2.Calm ∧ (site.answer r v).2.tables = some t :=
  ⟨h.serve (.ofRequest r), ((h.rested ht).tables_answer hr).trans ht⟩

theorem Calm.answer_counts (h : v.Calm) (ht : v.tables = some t) (i : Item) :
    (site.answer (.counts i) v).1 = if storable i.kind then .ok ((t.counts.get? i).map (·.value))
      else .error unstorable := by
  rw [Server.answer_counts, h.find?_eq ht]
  cases storable i.kind <;> rfl

theorem Calm.told_publicSummary (h : v.Calm) (ht : v.tables = some t) (i : Item) :
    (site.told (Service.publicSummary i).run v).1 = t.summary i none := by
  rw [Service.publicSummary, Site.told_call_bind, Site.told_counts, h.answer_counts ht,
    Tables.summary]
  cases storable i.kind with
  | false => rfl
  | true => rcases t.counts.get? i with _ | row <;> rfl

/-- A calm server answers for a mark from its tables. -/
theorem Calm.decide_marked (h : v.Calm) (ht : v.tables = some t) {i : Item}
    (hkind : storable i.kind = true) (m : Mark) (user : Int64) :
    decide ((site.answer (.marked m i user) v).1 = .ok true) = (t.active? m (i, user)).isSome := by
  have hanswer : (site.answer (.marked m i user) v).1 = .ok (t.active? m (i, user)).isSome :=
    (h.serve_marked ht m i user).trans (if_pos hkind)
  rw [hanswer]
  cases (t.active? m (i, user)).isSome <;> rfl

theorem Calm.told_summary (h : v.Calm) (ht : v.tables = some t) (i : Item) (user : Int64) :
    (site.told (Service.summary i user).run v).1 = t.summary i (some user) := by
  -- each of the three lookups finds the tables as the one before it has left them
  obtain ⟨hcalm, htables⟩ := h.answer ht (r := .counts i) nofun
  obtain ⟨hcalm', htables'⟩ := hcalm.answer htables (r := .marked .like i user) nofun
  rw [Site.summary_eq, Site.told_call_bind, Site.told_counts, h.answer_counts ht, Tables.summary]
  cases hkind : storable i.kind with
  | false => rfl
  | true =>
    rcases t.counts.get? i with _ | row
    · rfl
    · refine (site.told_flagged i user row.value _).trans ?_
      rw [hcalm.decide_marked htables hkind, hcalm'.decide_marked htables' hkind]
      rfl

end Server

namespace Tool

/-- What is printed of an item that is as the tables have it. -/
theorem served_told {c : Call Summary} {v : Server} {t : Tables} {i : Item} {user : Option Int64}
    (hc : (Server.site.told c.run v).1 = t.summary i user) :
    served (Server.site.told (c >>= fun s => pure (.printed s.toJson)).run v).1
      = t.showing i user := by
  rw [Site.told_call_bind, Tables.showing, ← hc]
  rcases Server.site.told c.run v with ⟨why | s, v'⟩ <;> rfl

/-- **What is shown of an item** is what the tables have. -/
theorem plain_showItem {h : Host} {t : Tables} (hcalm : h.server.Calm)
    (ht : h.server.tables = some t) (i : Item) (user : Option Int64) :
    (plain (some h.address) (.showItem i user) h).1 = t.showing i user := by
  obtain ⟨v, hcheck, hcalm', htables⟩ := hcalm.healthCheck
  have hreach : h.reach h.address = (.ok (), { h with server := v }) := by
    rw [Host.reach, Host.connect, if_pos rfl, hcheck]
  unfold plain
  dsimp only
  rw [hreach]
  cases user with
  | none => exact served_told (hcalm'.told_publicSummary (htables.trans ht) i)
  | some user => exact served_told (hcalm'.told_summary (htables.trans ht) i user)

/-- **The cache of the tool cannot be observed**, nor can the time limit of its jobs. Two runs of
one command with settings that differ in nothing else show the same and do the same to the server,
which gets the same statements from them in the same order; and so do runs one after another.
Whatever was run before and whatever became of it, an item is shown just as the tables have it, if
the server is left alone then; and it is left alone if it was so before. -/
theorem cache_unobserved :
    (∀ {l l' : Launch}, l.Alike l' → ∀ h : Host, l.go h = l'.go h) ∧
    (∀ {ls ls' : List Launch}, List.Forall₂ Launch.Alike ls ls' → ∀ h : Host,
      launchAll ls h = launchAll ls' h) ∧
    ∀ (ls : List Launch) (before : Host),
      let left := (launchAll ls before).2
      (before.server.Calm → left.server.Calm) ∧
      ∀ {t : Tables}, left.server.Calm → left.server.tables = some t →
      ∀ {l : Launch} {i : Invocation} {settings : Settings} {item : Item} {user : Option Int64},
        l.Accepted i settings → i.command = .showItem item user →
        settings.url = some before.address → (l.go left).1 = seenOf (t.showing item user) := by
  refine ⟨fun hl h => hl.go_eq h, fun hls h => launchAll_eq hls h, ?_⟩
  intro ls before left
  refine ⟨calm_launchAll ls, ?_⟩
  intro t hcalm ht l i settings item user hl hcommand hurl
  rw [hl.go_eq, hcommand, hurl, ← address_launchAll ls before]
  exact congrArg seenOf (plain_showItem hcalm ht item user)

/-- A command on the server at `db`, with the settings that there are if nothing is set. -/
def cached (args : List String) : Launch := ⟨"--database-url=db" :: args, {}⟩

/-- The same without a cache, with the least of it that can be set, and with no time for jobs. -/
def cramped (args : List String) : Launch where
  args := "--database-url=db" :: "--cache-enabled=no" :: "--background-timeout-ms=1" :: args
  surroundings := { environment :=
    [("ENGAGEMENT__CACHE__CAPACITY", "1"), ("ENGAGEMENT__CACHE__TTL_SECONDS", "1")] }

theorem accepted_cached (args : List String) {c : Command}
    (h : Invocation.parse (cached args).args none = .ok ⟨c, none, { databaseUrl := some "db" }⟩) :
    (cached args).Accepted ⟨c, none, { databaseUrl := some "db" }⟩
      ⟨⟨some .info⟩, .compact, some "db", 8, true, 900, 10000, 3000⟩ :=
  ⟨h, rfl⟩

theorem accepted_cramped (args : List String) {c : Command} {o : Overrides}
    (ho : o = { databaseUrl := some "db", cacheEnabled := some false, backgroundTimeout := some 1 })
    (h : Invocation.parse (cramped args).args none = .ok ⟨c, none, o⟩) :
    (cramped args).Accepted ⟨c, none, o⟩
      ⟨⟨some .info⟩, .compact, some "db", 8, false, 1, 1, 1⟩ := by
  subst ho
  refine ⟨h, ?_⟩
  have hcapacity := Setting.settingOf?_eq .capacity (v := "ENGAGEMENT__CACHE__CAPACITY") "1"
    (by decide +kernel)
  have hlifetime := Setting.settingOf?_eq .lifetime (v := "ENGAGEMENT__CACHE__TTL_SECONDS") "1"
    (by decide +kernel)
  have hnamed : (none : Option String).elim (.ok []) (cramped args).surroundings.source = .ok [] :=
    rfl
  have htree := Surroundings.treeOf_eq rfl rfl hnamed
  simp only [Surroundings.fromVariables, cramped, List.filterMap_cons, List.filterMap_nil,
    hcapacity, hlifetime] at htree
  exact Surroundings.load_eq htree (d := { capacity := some 1, lifetime := some 1 })
    (by decide +kernel)

/-- A read and a like, one of them with a cache and one without, and what is shown then to the user
who likes the item. -/
theorem cache_unobserved_cramped :
    let h : Host := ⟨"db", {}⟩
    let reading := ["read", "--biz=a", "--biz-id=1"]
    let liking := ["like", "--biz=a", "--biz-id=1", "--uid=2"]
    let showing := ["show", "--biz=a", "--biz-id=1", "--uid=2"]
    (cached reading).go h = (cramped reading).go h ∧
    launchAll [cached reading, cramped liking] h = launchAll [cramped reading, cached liking] h ∧
    ((cramped showing).go (launchAll [cached reading, cramped liking] h).2).1 = (0, some
      ("\x7b\n  \"biz\": \"a\",\n  \"biz_id\": 1,\n  \"read_cnt\": 1,\n  \"like_cnt\": 1,\n" ++
        "  \"collect_cnt\": 0,\n  \"liked\": true,\n  \"collected\": false\n\x7d")) := by
  intro h reading liking showing
  have hread := accepted_cached reading (c := .read ⟨"a", 1⟩) (by decide +kernel)
  have hread' := accepted_cramped reading (c := .read ⟨"a", 1⟩) rfl (by decide +kernel)
  have hlike := accepted_cached liking (c := .like ⟨"a", 1⟩ 2) (by decide +kernel)
  have hlike' := accepted_cramped liking (c := .like ⟨"a", 1⟩ 2) rfl (by decide +kernel)
  have hshow := accepted_cramped showing (c := .showItem ⟨"a", 1⟩ (some 2)) rfl
    (by decide +kernel)
  have hreads : (cached reading).Alike (cramped reading) :=
    ⟨_, _, _, _, hread, hread', rfl, rfl, rfl, rfl, rfl⟩
  have hlikes : (cramped liking).Alike (cached liking) :=
    ⟨_, _, _, _, hlike', hlike, rfl, rfl, rfl, rfl, rfl⟩
  obtain ⟨hgo, hgoAll, hshown⟩ := cache_unobserved
  refine ⟨hgo hreads h, hgoAll (.cons hreads (.cons hlikes .nil)) h, ?_⟩
  have hleft : (launchAll [cached reading, cramped liking] h).2.server.tables = some
      { counts := [(⟨"a", 1⟩, ⟨⟨1, 1, 0⟩, 2, 4⟩)]
        likes := [((⟨"a", 1⟩, 2), .new ⟨0, .active⟩ 4)] } := by
    rw [launchAll, launchAll, launchAll, hlike'.go_eq, hread.go_eq]
    decide +kernel
  obtain ⟨hcalm, hshown⟩ := hshown [cached reading, cramped liking] h
  refine (hshown (hcalm ⟨⟨rfl, rfl⟩, rfl⟩) hleft hshow rfl rfl).trans ?_
  decide +kernel

end Tool

end Popularity
