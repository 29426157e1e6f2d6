import Popularity.Proofs.Traffic.Pledges

/-!
# Where entries come from

Every entry of the cache has an origin in the history: a call was told the row of the item by the
store, left a job to populate it, and the job has set the entry. After that the entry was touched by
nothing but adjustments. What the row was when it was told is known from the history as well, and so
is what has become of it since. So entry and row can be compared without looking at either.

Three points of the history matter, and they may be far apart: when the row was told, when the job
was left, and when the entry was set.

## Main definitions

* `Traffic.Origin` — how an entry came about
* `Traffic.Sound` — all that holds of a state that was reached from an opening

## Main results

* `Traffic.RunIf.sound`
-/

namespace Popularity

namespace Traffic

variable {S : Type} {site : Registry S} {s s' : Traffic S} {p : Prop} {d : Option Deed} {i : Item}

/-! ### Origins -/

/-- How the entry of an item came about: a call was told the counts, left a job to populate them,
and the job has set the entry, which was not set again. -/
structure Origin (h : History) (i : Item) where
  call : Nat
  job : Nat
  counts : Counts
  foundAt : Nat
  leftAt : Nat
  placedAt : Nat
  /-- What has happened since the entry was set. -/
  after : History
  /-- What happened between the answer of the store and then. -/
  between : History
  before : History
  history_eq : h = after ++ (placedAt, .placed job i counts) ::
    (between ++ (foundAt, .found call i (some counts)) :: before)
  left_mem : (leftAt, .left call job (.populate i counts)) ∈ between
  latest : ∀ t j n, (t, .placed j i n) ∉ after

namespace Origin

variable {h : History}

/-- What has happened since the store told the counts. -/
def newer (g : Origin h i) : History :=
  g.after ++ (g.placedAt, .placed g.job i g.counts) :: g.between

theorem eq_newer_append (g : Origin h i) :
    h = g.newer ++ (g.foundAt, .found g.call i (some g.counts)) :: g.before :=
  g.history_eq.trans (by simp [newer])

theorem changes_newer (g : Origin h i) :
    g.newer.changes = g.after.changes ++ g.between.changes := by
  simp [newer, Deed.changes]

/-- The history goes on. -/
def extend (g : Origin h i) (d : List (Nat × Deed)) (hd : ∀ t j n, (t, .placed j i n) ∉ d) :
    Origin (d ++ h) i where
  __ := g
  after := d ++ g.after
  history_eq := by rw [List.append_assoc, ← g.history_eq]
  latest t j n hmem := (List.mem_append.mp hmem).elim (hd t j n) (g.latest t j n)

end Origin

/-- What an origin says of its entry. With `p`, the job was left at once and done in time. -/
structure Explains (p : Prop) (limit lifetime : Nat) {h : History} (e : Entry) (g : Origin h i) :
    Prop where
  name_eq : e.name = i.cacheKey
  counts_eq : ∀ k, (e.counts.get k).toInt
    = (g.counts.get k).toInt + Adjustment.total i k g.after.applied
  expiresAt_eq : e.expiresAt = g.placedAt + lifetime
  prompt : p → g.leftAt = g.foundAt ∧ g.placedAt ≤ g.leftAt + limit

/-! ### Sound states -/

/-- All that holds of a state that was reached from an opening, by prompt steps if `p`. -/
structure Sound (p : Prop) (site : Registry S) (s : Traffic S) : Prop where
  dutiful : Dutiful s
  balanced : Balanced s
  pledged : Pledged p s
  /-- Rows that were told have moved since by the changes made since. -/
  told : ∀ (newer : History) t c i n older, s.history = newer ++ (t, .found c i n) :: older →
    Row.Moved i newer.changes n (site.row s.store i)
  explained : ∀ e ∈ s.cache.entries, ∃ i, ∃ g : Origin s.history i,
    Explains p s.limit s.cache.lifetime e g
  /-- Whatever was adjusted was owed, not long before if `p`. -/
  owed : ∀ (newer : History) t a older, s.history = newer ++ (t, .settled a true) :: older →
    ∃ c t₀, History.Owed older c (.adjust a) t₀ ∧ (p → t ≤ t₀ + s.limit)
  past : ∀ x ∈ s.history, x.1 ≤ s.now
  /-- The history is in the order of time. -/
  ordered : s.history.Pairwise fun x y => y.1 ≤ x.1

/-- Any number of steps, prompt ones if `p`. -/
abbrev RunIf (p : Prop) (site : Site S) : Traffic S → Traffic S → Prop :=
  Relation.ReflTransGen fun s s' => Step site s s' ∧ (p → Prompt s s')

theorem Run.runIf (h : Run site.toSite s s') : RunIf False site.toSite s s' :=
  Relation.ReflTransGen.mono (fun _ _ hstep => ⟨hstep, nofun⟩) s s' h

theorem PromptRun.runIf (h : PromptRun site.toSite s s') : RunIf True site.toSite s s' :=
  Relation.ReflTransGen.mono (fun _ _ hstep => ⟨hstep.1, fun _ => hstep.2⟩) s s' h

theorem Sound.opening (limit : Nat) (store : S) (o : Cache.Options) :
    Sound p site (opening limit store o) where
  dutiful := nofun
  balanced := balanced_opening limit store o
  pledged := .opening limit store o
  told newer t c i n older h := by cases newer <;> cases h
  explained := nofun
  owed newer t a older h := by cases newer <;> cases h
  past := nofun
  ordered := .nil

/-- The row that an origin was told has moved since by the changes made since. -/
theorem Sound.moved_origin (hs : Sound p site s) (g : Origin s.history i) :
    Row.Moved i g.newer.changes (some g.counts) (site.row s.store i) :=
  hs.told _ _ _ _ _ _ g.eq_newer_append

/-! ### Steps -/

namespace Progress

/-- A deed in the history is new, or it was there before. -/
theorem split (h : Progress site s s' d) {newer older : History} {x : Nat × Deed}
    (hx : s'.history = newer ++ x :: older) :
    newer = [] ∧ d = some x.2 ∧ x.1 = s.now ∧ older = s.history ∨
      ∃ newer', newer = d.toList.map (s.now, ·) ++ newer' ∧ s.history = newer' ++ x :: older := by
  rw [h.history_eq] at hx
  cases d with
  | none => exact .inr ⟨newer, rfl, hx⟩
  | some d =>
    rcases List.cons_eq_append_iff.mp hx with ⟨rfl, heq⟩ | ⟨newer', rfl, heq⟩
    · injection heq with h₁ h₂
      subst h₁
      exact .inl ⟨rfl, rfl, rfl, h₂⟩
    · exact .inr ⟨newer', rfl, heq⟩

theorem told (h : Progress site s s' d) (hs : Sound p site s) {newer older : History} {t c : Nat}
    {n : Option Counts} (hx : s'.history = newer ++ (t, .found c i n) :: older) :
    Row.Moved i newer.changes n (site.row s'.store i) := by
  rcases h.split hx with ⟨rfl, hd, -, -⟩ | ⟨newer', rfl, hold⟩
  · rw [h.row_found c i n hd]
    exact Row.Moved.refl
  · have hmoved := (hs.told _ _ _ _ _ _ hold).append (h.row_moved i)
    refine hmoved.perm ?_
    cases d with
    | none => simp
    | some d => simpa using List.perm_append_comm

/-- An entry that is set comes from the job that sets it. -/
theorem explained_placed (h : Progress site s s' d) (hs : Pledged p s) {j : Nat} {n : Counts}
    (hd : d = some (.placed j i n)) : ∃ g : Origin s'.history i,
      Explains p s.limit s.cache.lifetime ⟨i.cacheKey, n, s.now + s.cache.lifetime⟩ g := by
  obtain ⟨ch, t, hj, hjob, hended, hsince, hnow⟩ := h.placer j i n hd
  obtain ⟨t₀, ⟨newer, c, older, hhist, d₀, hob, hmem⟩, hp⟩ := hs.job j ch hj hended
  rw [hjob] at hob hhist
  cases hob
  obtain ⟨mid, before, rfl⟩ := List.append_of_mem hmem
  have heq : s'.history = [] ++ (s.now, .placed j i n) ::
      ((newer ++ (ch.left, .left c j (.populate i n)) :: mid) ++
        (t₀, .found c i (some n)) :: before) := by
    rw [h.history_eq, hhist, hd]
    simp
  have hleft := List.mem_append_right newer
    (List.mem_cons_self (a := (ch.left, Deed.left c j (.populate i n))) (l := mid))
  refine ⟨{ history_eq := heq, left_mem := hleft, latest := by simp, .. }, rfl, ?_, rfl, ?_⟩
  · simp [History.applied]
  · intro hp'
    obtain ⟨rfl, hstart⟩ := hp hp'
    rw [hsince, Option.getD_some] at hstart
    exact ⟨rfl, hstart ▸ hnow⟩

theorem explained (h : Progress site s s' d) (hs : Sound p site s) {e : Entry}
    (he : e ∈ s'.cache.entries) :
    ∃ i, ∃ g : Origin s'.history i, Explains p s'.limit s'.cache.lifetime e g := by
  rw [h.limit_eq, h.lifetime_eq]
  cases h.provenance e he with
  | placed j i n hd he =>
    subst he
    exact ⟨i, h.explained_placed hs.pledged hd⟩
  | adjusted a e₀ hd he₀ hname hcounts he hexpires =>
    obtain ⟨i, g, hg⟩ := hs.explained e₀ he₀
    have hi : a.item = i := Item.cacheKey_injective (hname.symm.trans hg.name_eq)
    rw [h.history_eq, hd]
    refine ⟨i, g.extend [(s.now, .settled a true)] (by simp), he.trans hg.name_eq, ?_,
      hexpires.trans hg.expiresAt_eq, hg.prompt⟩
    intro k
    rw [Counts.get_of_add?_eq_some hcounts, hg.counts_eq]
    simp [Origin.extend, Deed.applied, hi]
    omega
  | kept he hplaced hadjusted =>
    obtain ⟨i, g, hg⟩ := hs.explained e he
    rw [h.history_eq]
    refine ⟨i, g.extend _ ?_, hg.name_eq, ?_, hg.expiresAt_eq, hg.prompt⟩
    · intro t j n hmem
      obtain ⟨d, hd, heq⟩ := List.mem_map.mp hmem
      cases heq
      exact hplaced j i n (Option.mem_toList.mp hd) hg.name_eq
    · intro k
      rw [hg.counts_eq]
      -- an adjustment of this item would have touched the entry
      have hother : ∀ a ∈ History.applied (d.toList.map (s.now, ·)), a.item ≠ i := by
        intro a ha hi
        cases d with
        | none => cases ha
        | some d =>
          have hd : d = .settled a true := by simpa [Deed.mem_applied] using ha
          exact hadjusted a (congrArg some hd) (hi ▸ hg.name_eq)
      simp [Origin.extend, Adjustment.total_eq_zero hother]

/-- Whoever is entitled to an adjustment owes it, since not long ago if `p`. -/
theorem owed_of_entitled (hs : Pledged p s) {a : Adjustment} (h : s.Entitled (.adjust a)) :
    ∃ c t₀, s.history.Owed c (.adjust a) t₀ ∧ (p → s.now ≤ t₀ + s.limit) := by
  rcases h with ⟨c, v, t, hc, hu, hsince, hnow⟩ | ⟨j, ch, t, hj, hjob, hended, hsince, hnow⟩
  · obtain ⟨t₀, howed, hp⟩ := hs.call c v _ hc hu
    rw [hsince, Option.getD_some] at hp
    exact ⟨c, t₀, howed, fun h => hp h ▸ hnow⟩
  · obtain ⟨t₀, ⟨newer, c, older, hhist, howed⟩, hp⟩ := hs.job j ch hj hended
    rw [hsince, Option.getD_some] at hp
    refine ⟨c, t₀, ?_, ?_⟩
    · rw [hhist, ← hjob, List.append_cons]
      exact howed.append _
    · intro h
      obtain ⟨rfl, rfl⟩ := hp h
      exact hnow

theorem owed (h : Progress site s s' d) (hs : Sound p site s) {newer older : History} {t : Nat}
    {a : Adjustment} (hx : s'.history = newer ++ (t, .settled a true) :: older) :
    ∃ c t₀, History.Owed older c (.adjust a) t₀ ∧ (p → t ≤ t₀ + s'.limit) := by
  rw [h.limit_eq]
  rcases h.split hx with ⟨-, hd, rfl, rfl⟩ | ⟨newer', -, hold⟩
  · exact owed_of_entitled hs.pledged (h.settler a hd)
  · exact hs.owed _ _ _ _ hold

theorem past (h : Progress site s s' d) (hs : Sound p site s) : ∀ x ∈ s'.history, x.1 ≤ s'.now := by
  intro x hx
  rcases h.mem_history hx with ⟨-, hnow⟩ | hx
  · rw [hnow]
    exact h.now_le
  · exact Nat.le_trans (hs.past x hx) h.now_le

theorem ordered (h : Progress site s s' d) (hs : Sound p site s) :
    s'.history.Pairwise fun x y => y.1 ≤ x.1 := by
  rw [h.history_eq]
  cases d with
  | none => exact hs.ordered
  | some d => exact List.pairwise_cons.mpr ⟨hs.past, hs.ordered⟩

end Progress

/-- **Sound states stay sound.** -/
theorem Step.sound (h : Step site.toSite s s') (hp : p → Prompt s s') (hs : Sound p site s) :
    Sound p site s' := by
  obtain ⟨d, hd⟩ := h.progress
  exact ⟨h.dutiful hs.dutiful, h.balanced hs.dutiful hs.balanced,
    h.pledged hp hs.dutiful hs.pledged, fun _ _ _ _ _ _ hx => hd.told hs hx,
    fun _ he => hd.explained hs he, fun _ _ _ _ hx => hd.owed hs hx, hd.past hs, hd.ordered hs⟩

theorem RunIf.sound (h : RunIf p site.toSite s s') (hs : Sound p site s) : Sound p site s' := by
  induction h with
  | refl => exact hs
  | tail _ hstep ih => exact hstep.1.sound hstep.2 ih

end Traffic

end Popularity
