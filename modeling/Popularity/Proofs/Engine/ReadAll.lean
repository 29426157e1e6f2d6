import Popularity.Proofs.Cache.Reads
import Popularity.Proofs.Engine.Unhindered
import Popularity.Proofs.Service.Settled

/-!
# A list of reads and the reads one by one

A list of reads is recorded at once, and the cache is told of it in the background, one job for each
place in the list. A single read is told to the cache before its call is over. In a scene without
troubles it comes to the same: the ledger counts the reads one after another in both cases, and the
order in which the jobs are done makes no difference to what the cache holds.

Lists that do not go together are refused before anything is asked.

## Main definitions

* `Ledger.Roomy` — a ledger with room for some reads
* `Site.readEach` — the reads one by one

## Main results

* `Ledger.play_readZipped_mismatched`
* `Ledger.play_readEach`, `Ledger.play_readAll` — what both ways come to
* `Ledger.readZipped_agrees` — they come to the same
-/

namespace Popularity

open Service

/-! ### The ledger -/

namespace Ledger

variable {l l' : Ledger} {i : Item} {is : List Item}

/-- There is room in the counts for some reads. -/
def Roomy (is : List Item) (l : Ledger) : Prop :=
  ∀ i ∈ is, ((l.counts.get? i).getD .zero).reads.toInt + is.count i < Word.bound

/-- **What one read leaves to the others.** -/
theorem Roomy.bump (h : l.Roomy (i :: is)) : ∃ l', l.bump i .reads 1 = .ok l' ∧ l'.Roomy is := by
  have hi := h i List.mem_cons_self
  rw [List.count_cons_self] at hi
  have hnext : ((l.counts.get? i).getD .zero).reads.toInt + 1 < Word.bound := by omega
  refine ⟨_, by rw [Ledger.bump, Counts.add?_reads hnext], fun j hjs => ?_⟩
  have hmore : (((l.counts.get? i).getD .zero).more 1).reads.toInt
      = ((l.counts.get? i).getD .zero).reads.toInt + 1 := Counts.toInt_reads_more hnext
  change (((l.counts.put i _).get? j).getD .zero).reads.toInt + _ < _
  rw [Table.get?_put]
  by_cases hj : j = i
  · subst hj
    rw [if_pos (by simp), Option.getD_some, hmore]
    omega
  · have hother := h j (List.mem_cons_of_mem i hjs)
    rw [List.count_cons_of_ne (Ne.symm hj)] at hother
    rw [if_neg (by simpa using hj)]
    exact hother

theorem Roomy.exists_record (h : l.Roomy is) :
    ∃ l', is.foldlM (fun l i => l.bump i .reads 1) l = .ok l' := by
  induction is generalizing l with
  | nil => exact ⟨l, rfl⟩
  | cons i is ih =>
    obtain ⟨l₁, hl₁, hroom⟩ := h.bump
    obtain ⟨l', hl'⟩ := ih hroom
    exact ⟨l', by rw [List.foldlM_cons, hl₁]; exact hl'⟩

end Ledger

/-! ### Calls -/

/-- Reads items one by one. -/
def Site.readEach {S C : Type} [CacheKind C] (site : Site S) (is : List Item) :
    Act S C (List (Except CallFailure Unit)) :=
  is.mapM fun i => site.call (perform (.read i))

namespace Ledger

variable {limit now : Nat} {l l' : Ledger} {c : Option Cache} {s : Scene Ledger}
variable {i : Item} {is : List Item}

/-- Lists that do not go together are refused, and nothing is asked or changed. -/
theorem play_readZipped_mismatched {kinds : List String} {ids : List Int64}
    (h : kinds.length ≠ ids.length) (s : Scene Ledger) :
    (site.call (readZipped kinds ids)).play s
      = (.ok (.error (.mismatched kinds.length ids.length)), s) := by
  rw [readZipped, Item.zip?, if_neg h]
  rfl

/-- A read whose adjustment can be made is told to the cache when its call is over. -/
theorem play_read (h : Unhindered limit now [] l c s) (hl : l.bump i .reads 1 = .ok l')
    {out : Adjusted} (hout : (Cache.work now (.adjust i .reads 1) c).1.1 = .ok out) : ∃ s',
      (site.call (perform (.read i))).play s = (.ok (.ok ()), s') ∧
        Unhindered limit now [] l' (keptUp now (Upkeep.reads [i]) c) s' := by
  obtain ⟨s₁, h₁, hs₁⟩ := h.request site (.write (.read i))
  have hanswer : site.answer (.write (.read i)) l = (.ok true, l') := by
    change answer (.write (.read i)) l = _
    rw [answer, record, hl]
    rfl
  rw [hanswer] at h₁ hs₁
  have hreply : (site.reply (.store (.write (.read i)))).play s = (.ok (.ok true), s₁) := h₁
  have hne : Write.read i ≠ .readAll [] := by
    intro h
    cases h
  obtain ⟨next, hrun, hnext⟩ := exists_run_followRead ⟨i, .reads, 1⟩ (spans (.read i))
  have hdutiful := dutiful_follow (.read i)
  rw [follow, hrun] at hdutiful
  obtain ⟨s₂, h₂, hs₂⟩ := hs₁.awaited site hnext hdutiful hout
  refine ⟨s₂, ?_, hs₂⟩
  rw [Site.call, run_perform hne, Site.play_run_ask hreply, ← h₂, ← hrun]
  rfl

/-- The cache can be told of the first of some reads, and of the others after it. -/
theorem exists_work_read (hc : ∀ c' ∈ c, c'.Orderly ∧ c'.Roomy now (i :: is)) :
    (∃ out, (Cache.work now (.adjust i .reads 1) c).1.1 = .ok out) ∧
      ∀ c' ∈ keptUp now (Upkeep.reads [i]) c, c'.Orderly ∧ c'.Roomy now is := by
  cases c with
  | none => exact ⟨⟨_, rfl⟩, nofun⟩
  | some c =>
    obtain ⟨horderly, hroom⟩ := hc c rfl
    obtain ⟨hout, hleaves⟩ := Cache.adjust_read horderly hroom
    refine ⟨hout, fun c' hc' => ?_⟩
    obtain rfl := Option.some.inj hc'
    exact ⟨horderly.exec now (.adjust i .reads 1), hleaves.roomy⟩

/-- **Reads one by one.** -/
theorem play_readEach (h : Unhindered limit now [] l c s)
    (hl : is.foldlM (fun l i => l.bump i .reads 1) l = .ok l')
    (hc : ∀ c' ∈ c, c'.Orderly ∧ c'.Roomy now is) : ∃ s',
      (site.readEach is).play s = (.ok (is.map fun _ => .ok ()), s') ∧
        Unhindered limit now [] l' (keptUp now (Upkeep.reads is) c) s' := by
  induction is generalizing l c s with
  | nil =>
    cases hl
    exact ⟨s, rfl, by simpa [Upkeep.reads] using h⟩
  | cons i is ih =>
    rw [List.foldlM_cons] at hl
    cases hbump : l.bump i .reads 1 with
    | error why =>
      rw [hbump] at hl
      cases hl
    | ok l₁ =>
      rw [hbump] at hl
      obtain ⟨⟨out, hout⟩, hc₁⟩ := exists_work_read hc
      obtain ⟨s₁, h₁, hs₁⟩ := play_read h hbump hout
      obtain ⟨s', h', hs'⟩ := ih hs₁ hl hc₁
      refine ⟨s', ?_, ?_⟩
      · rw [Site.readEach, List.mapM_cons, Act.play_bind_ok h₁]
        exact (Act.play_bind_ok h').trans rfl
      · have hreads : Upkeep.reads (i :: is) = Upkeep.reads [i] ++ Upkeep.reads is := rfl
        rw [hreads, keptUp_append]
        exact hs'

/-- **A list of reads.** -/
theorem play_readAll (h : Unhindered limit now [] l c s)
    (hl : is.foldlM (fun l i => l.bump i .reads 1) l = .ok l') : ∃ s',
      (site.call (perform (.readAll is))).play s = (.ok (.ok ()), s') ∧
        Unhindered limit now (Upkeep.reads is) l' c s' := by
  by_cases his : is = []
  · subst his
    cases hl
    exact ⟨s, rfl, h⟩
  · obtain ⟨s₁, h₁, hs₁⟩ := h.request site (.write (.readAll is))
    have hanswer : site.answer (.write (.readAll is)) l = (.ok true, l') := by
      change answer (.write (.readAll is)) l = _
      rw [answer, record, hl]
      rfl
    rw [hanswer] at h₁ hs₁
    have hreply : (site.reply (.store (.write (.readAll is)))).play s = (.ok (.ok true), s₁) := h₁
    have hdue : Call.due (follow (.readAll is)).run = Upkeep.reads is := by
      rw [due_follow, Write.adjustments, List.map_map]
      rfl
    rcases settled_follow (.readAll is) with hd | ⟨hawaits, -⟩
    · obtain ⟨s₂, h₂, hs₂⟩ := hs₁.aside site hd
      rw [hdue] at hs₂
      refine ⟨s₂, ?_, hs₂⟩
      rw [Site.call, run_perform (by simpa using his), Site.play_run_ask hreply]
      exact h₂
    · cases hawaits

end Ledger

/-! ### Both ways -/

/-- A scene where nothing is under way and nothing lies in the way. -/
structure Quiet {S : Type} (s : Scene S) : Prop where
  waiting : s.1.waiting = []
  running : s.1.running = []
  storeTroubles : s.2.storeTroubles = []
  cacheTroubles : s.2.cacheTroubles = []

theorem Quiet.unhindered {S : Type} {s : Scene S} (h : Quiet s) :
    Unhindered s.1.limit s.1.now [] s.2.store s.2.cache s := by
  obtain ⟨⟨limit, now, waiting, running⟩, store, cache, storeTroubles, cacheTroubles, steps,
    reports⟩ := s
  obtain ⟨hwaiting, hrunning, hstore, hcache⟩ := h
  dsimp only at hwaiting hrunning hstore hcache
  subst hwaiting hrunning hstore hcache
  exact ⟨steps, reports, rfl⟩

/-- The jobs of some reads in another order are the jobs of the reads in that order. -/
theorem Upkeep.exists_reads_of_perm {us : List Upkeep} {is : List Item}
    (h : us.Perm (Upkeep.reads is)) : ∃ is', us = Upkeep.reads is' ∧ is'.Perm is := by
  have hcomp :=
    congrFun (congrFun (List.eq_map_comp_perm fun i => Upkeep.adjust ⟨i, .reads, 1⟩) us) is
  exact hcomp.mpr h

/-- **A list of reads and the reads one by one come to the same.** Lists that do not go together are
refused, and nothing is asked or changed. Otherwise, if no counter would leave its range, both ways
succeed; and in whatever order the jobs are done that the list of reads has left, the ledger is the
same afterwards, and so is what the cache holds, with its counts and times. No time has passed. -/
theorem Ledger.readZipped_agrees {s : Scene Ledger} (hs : Quiet s)
    (hc : ∀ c ∈ s.2.cache, c.Orderly) (kinds : List String) (ids : List Int64) :
    (kinds.length ≠ ids.length → (site.call (readZipped kinds ids)).play s
      = (.ok (.error (.mismatched kinds.length ids.length)), s)) ∧
    let is := List.zipWith Item.mk kinds ids
    (kinds.length = ids.length → s.2.store.Roomy is →
      (∀ c ∈ s.2.cache, c.Roomy s.1.now is) → ∃ s₁ s₂,
        (site.call (readZipped kinds ids)).play s = (.ok (.ok ()), s₁) ∧
        (site.readEach is).play s = (.ok (is.map fun _ => .ok ()), s₂) ∧ s₂.1 = s.1 ∧
        ∀ us, us.Perm s₁.1.waiting →
          let s' := World.upkeep.drain ({ s₁.1 with waiting := us }, s₁.2)
          s'.1 = s₂.1 ∧ s'.2.store = s₂.2.store ∧
            Option.Rel Cache.Alike s'.2.cache s₂.2.cache) := by
  refine ⟨fun h => play_readZipped_mismatched h s, fun hlength hroom hcached => ?_⟩
  obtain ⟨l', hl'⟩ := hroom.exists_record
  obtain ⟨s₁, h₁, steps₁, reports₁, rfl⟩ := play_readAll hs.unhindered hl'
  obtain ⟨s₂, h₂, steps₂, reports₂, rfl⟩ := play_readEach hs.unhindered hl'
    fun c hmem => ⟨hc c hmem, hcached c hmem⟩
  have hzip : readZipped kinds ids = perform (.readAll (List.zipWith Item.mk kinds ids)) := by
    rw [readZipped, Item.zip?, if_pos hlength]
  rw [← hzip] at h₁
  refine ⟨_, _, h₁, h₂, ?_, fun us hus => ?_⟩
  · obtain ⟨steps, reports, heq⟩ := hs.unhindered
    exact (congrArg Prod.fst heq).symm
  · obtain ⟨is', rfl, hperm⟩ := Upkeep.exists_reads_of_perm hus
    have hleft : Unhindered s.1.limit s.1.now (Upkeep.reads is') l' s.2.cache
        ({ limit := s.1.limit, now := s.1.now, waiting := Upkeep.reads is' },
          { store := l', cache := s.2.cache, steps := steps₁, reports := reports₁ }) :=
      ⟨steps₁, reports₁, rfl⟩
    obtain ⟨steps, reports, hdrain⟩ := hleft.drain
    dsimp only
    rw [hdrain]
    refine ⟨rfl, rfl, ?_⟩
    dsimp only [keptUp]
    rcases hcache : s.2.cache with _ | c
    · exact .none
    · exact .some (Cache.alike_upkept_reads (hc c hcache) ((hcached c hcache).perm hperm.symm)
        hperm)

/-- An article whose entry is live, and a video whose entry has expired and which has no row. -/
def Ledger.shelf : Scene Ledger :=
  ({ limit := 500, now := 50 },
    { store := { counts := [(article, ⟨5, 3, 0⟩)] },
      cache := some { capacity := 4, lifetime := 40, entries :=
        [⟨(⟨"video", 2⟩ : Item).cacheKey, ⟨1, 0, 0⟩, 40⟩, ⟨article.cacheKey, ⟨5, 3, 0⟩, 90⟩] } })

/-- The article is read twice and the video once. The jobs are done from the last to the first, and
the cache is as it is when the reads are made one by one: it holds the article only. -/
theorem Ledger.readZipped_agrees_shelf : ∃ s₁ s₂ : Scene Ledger,
    (site.call (readZipped ["article", "video", "article"] [1, 2, 1])).play shelf
      = (.ok (.ok ()), s₁) ∧
    (site.readEach [article, ⟨"video", 2⟩, article]).play shelf
      = (.ok [.ok (), .ok (), .ok ()], s₂) ∧
    s₂.2.cache.map (·.entries) = some [⟨article.cacheKey, ⟨7, 3, 0⟩, 90⟩] ∧
    Option.Rel Cache.Alike
      (World.upkeep.drain ({ s₁.1 with waiting := s₁.1.waiting.reverse }, s₁.2)).2.cache
      s₂.2.cache := by
  have horderly : ∀ c ∈ shelf.2.cache, c.Orderly := by
    rintro c ⟨⟩
    exact ⟨by decide +kernel, by decide⟩
  have hcached : ∀ c ∈ shelf.2.cache,
      c.Roomy shelf.1.now [article, ⟨"video", 2⟩, article] := by
    rintro c ⟨⟩
    unfold Cache.Roomy
    decide +kernel
  have hroom : shelf.2.store.Roomy [article, ⟨"video", 2⟩, article] := by
    unfold Roomy
    decide +kernel
  have hentries : ((site.readEach [article, ⟨"video", 2⟩, article] : Action Ledger _).play
      shelf).2.2.cache.map (·.entries) = some [⟨article.cacheKey, ⟨7, 3, 0⟩, 90⟩] := by
    decide +kernel
  obtain ⟨s₁, s₂, h₁, h₂, -, hagree⟩ :=
    (readZipped_agrees ⟨rfl, rfl, rfl, rfl⟩ horderly ["article", "video", "article"]
      [1, 2, 1]).2 rfl hroom hcached
  have hitems : List.zipWith Item.mk ["article", "video", "article"] [1, 2, 1]
      = [article, ⟨"video", 2⟩, article] := rfl
  rw [hitems] at h₂
  rw [h₂] at hentries
  exact ⟨s₁, s₂, h₁, h₂, hentries, (hagree _ (List.reverse_perm _)).2.2⟩

end Popularity
