import Popularity.Proofs.Cache.Upkeep
import Popularity.Proofs.Traffic.Drift
import Popularity.Proofs.Traffic.Life
import Mathlib.Data.Fintype.EquivFin

/-!
# Reads that do not come back

A single read that was counted waits for the cache to follow it. Whatever the cache says, or if it
says nothing in time, the read is done: the call is settled, and comes to its end within the time
limit with nobody's help. Only one thing can keep it from that. If the entry of the item is live and
holds the highest number there is, the adjustment crashes, and takes the call with it.

The store has counted the read, so the row is not ahead of such an entry, although one adjustment is
still to come. The entry has seen an adjustment too many, then, and it can have done so only in one
way: while its row was on the way to the cache, a change of the item was made or was waiting for its
adjustment. So reads are safe as long as no race is lost, and at the end of the range after that
they are not.

## Main results

* `Traffic.exists_run_of_settled` — a settled call needs nobody's help
* `Traffic.Course.exists_crash` — a call that has crashed, at the moment when it did
* `Traffic.overrun_of_crashing`
* `Traffic.Course.read_returns`, and `Traffic.exists_course_overrun`
-/

namespace Popularity

/-- Some number is not taken yet. -/
theorem Table.exists_get?_eq_none {V : Type} (t : Table Nat V) : ∃ k, t.get? k = none := by
  obtain ⟨k, hk⟩ := Infinite.exists_notMem_finset (t.map (·.1)).toFinset
  refine ⟨k, Option.not_isSome_iff_eq_none.mp fun h => hk ?_⟩
  exact List.mem_toFinset.mpr ((Table.isSome_get? t k).mp h)

namespace Traffic

variable {S : Type} {site : Site S} {s₀ s s' : Traffic S} {e : Option Turn} {ts : Turns}
variable {limit c : Nat} {v : Visit} {i : Item}

@[simp] theorem get?_calls_visit : (s.visit c v).calls.get? c = some v := by
  rw [calls_visit, Table.get?_put, if_pos (beq_self_eq_true c)]

/-! ### Calls that need nobody's help -/

section Settled

variable {d : Site.CallUnderway Service.Answer} {r : Except CallFailure Service.Answer}

/-- Jobs are left, and reports are made, without waiting for anything. -/
theorem exists_run_of_aside (site : Site S)
    (hd : d.Meets (fun q => q.isAside = true) (fun _ _ => True) (· = r))
    (hc : s.calls.get? c = some v) (hv : v.rest = some d) :
    ∃ s' v', Run site s s' ∧ s'.now = s.now ∧ s'.calls.get? c = some v' ∧
      v'.rest = some (.done r) := by
  induction d generalizing s v with
  | done a =>
    cases hd
    exact ⟨s, v, .refl, rfl, hc, hv⟩
  | ask q next ih =>
    obtain ⟨hq, hnext⟩ := hd
    have hgo : ∀ (x : q.Answer) (s₁ : Traffic S), Replies site s c v q x s₁ →
        ∃ s' v', Run site s s' ∧ s'.now = s.now ∧ s'.calls.get? c = some v' ∧
          v'.rest = some (.done r) := by
      intro x s₁ hr
      obtain ⟨s', v', hrun, hnow, hc', hv'⟩ := ih x (hnext x trivial)
        (get?_calls_visit (s := s₁) (v := ⟨v.order, some (next x), none⟩)) rfl
      exact ⟨s', v', .head (.hear hc hv hr) hrun, hnow.trans hr.now_eq, hc', hv'⟩
    cases q with
    | report w => exact hgo () s (.reported w)
    | detach u =>
      obtain ⟨j, hj⟩ := Table.exists_get?_eq_none s.jobs
      exact hgo () _ (.detached u j hj)
    | store w => cases hq
    | marks i user => cases hq
    | cached i => cases hq
    | adjust a => cases hq

/-- **A settled call comes to its end within the time limit**, also if the cache never answers. -/
theorem exists_run_of_settled (site : Site S) {awaits : Bool} (hd : Call.Settled awaits r d)
    (hc : s.calls.get? c = some v) (hv : v.rest = some d)
    (hsince : ∀ t, v.since = some t → t ≤ s.now) :
    ∃ s' v', Run site s s' ∧ s'.now ≤ s.now + s.limit ∧ s'.calls.get? c = some v' ∧
      v'.rest = some (.done r) := by
  rcases hd with hd | ⟨-, a, next, rfl, hnext⟩
  · obtain ⟨s', v', hrun, hnow, hc', hv'⟩ := exists_run_of_aside site hd hc hv
    exact ⟨s', v', hrun, by omega, hc', hv'⟩
  · -- it begins to await the adjustment, if it does not yet
    obtain ⟨s₁, v₁, t, hrun₁, hnow₁, hlimit₁, hc₁, hv₁, ht, hle⟩ : ∃ (s₁ : Traffic S) (v₁ : Visit)
        (t : Nat), Run site s s₁ ∧ s₁.now = s.now ∧ s₁.limit = s.limit ∧
          s₁.calls.get? c = some v₁ ∧ v₁.rest = some (.ask (.adjust a) next) ∧ v₁.since = some t ∧
          t ≤ s₁.now := by
      cases hs : v.since with
      | some t => exact ⟨s, v, t, .refl, rfl, rfl, hc, hv, hs, hsince t hs⟩
      | none =>
        exact ⟨_, _, s.now, .single (.await hc hv hs), rfl, rfl, get?_calls_visit, hv, rfl,
          Nat.le_refl _⟩
    -- the limit passes, and the call goes on without an answer
    have hpass : Step site s₁ { s₁ with now := s₁.now + s₁.limit } := .pass s₁ s₁.limit
    have hlate : Replies site { s₁ with now := s₁.now + s₁.limit } c v₁ (.adjust a) .late _ :=
      .adjustLate a t ht (Nat.add_le_add_right hle _)
    have hrun₂ := (hrun₁.tail hpass).tail (.hear hc₁ hv₁ hlate)
    obtain ⟨s', v', hrun, hnow, hc', hv'⟩ :=
      exists_run_of_aside site (hnext .late)
        (get?_calls_visit (v := ⟨v₁.order, some (next .late), none⟩)) rfl
    refine ⟨s', v', hrun₂.trans hrun, Nat.le_of_eq (hnow.trans ?_), hc', hv'⟩
    rw [now_visit, now_note, hnow₁, hlimit₁]

end Settled

/-! ### Times -/

theorem Move.now_le (h : Move site s e s') : s.now ≤ s'.now := by
  cases h with
  | pass time => exact Nat.le_add_right _ _
  | hear hc hv hq hr => exact Nat.le_of_eq hr.now_eq.symm
  | enter | leave | await | crash | start | finish | lose => exact Nat.le_refl _

/-- What is written down has happened by now. -/
theorem Course.past (h : Course site s₀ ts s) : ∀ x ∈ ts, x.1 ≤ s.now := by
  induction h with
  | start => exact nofun
  | @next ts s s' e h hm ih =>
    intro x hx
    rcases List.mem_append.mp hx with hx | hx
    · obtain ⟨d, -, rfl⟩ := List.mem_map.mp hx
      exact hm.now_le
    · exact Nat.le_trans (ih x hx) hm.now_le

/-! ### Calls that have crashed -/

/-- A call is about to crash. -/
structure Crashing (s : Traffic S) (c : Nat) (a : Adjustment) : Prop where
  asked : ∃ v next t, s.calls.get? c = some v ∧ v.rest = some (.ask (.adjust a) next) ∧
    v.since = some t
  crash : ∃ why cache, s.cache.adjust s.now a.item a.counter a.by_ = (.error why, cache)

/-- A call that is speechless crashed at some moment. -/
theorem Course.exists_crash {store : S} {o : Cache.Options}
    (h : Course site (opening limit store o) ts s) (hc : s.calls.get? c = some v)
    (hv : v.rest = none) :
    ∃ older s₁ a, Course site (opening limit store o) older s₁ ∧ older <:+ ts ∧ Run site s₁ s ∧
      s₁.Crashing c a := by
  induction h generalizing v with
  | start => cases hc
  | @next ts s s' e h hm ih =>
    -- it has crashed before, or this is the step
    have hbefore : ∀ v', s.calls.get? c = some v' → v'.rest = none → ∃ older s₁ a,
        Course site (opening limit store o) older s₁ ∧
          older <:+ e.toList.map (s.now, ·) ++ ts ∧ Run site s₁ s' ∧ s₁.Crashing c a := by
      intro v' hc' hv'
      obtain ⟨older, s₁, a, h₁, hsuffix, hrun, hcrash⟩ := ih hc' hv'
      exact ⟨older, s₁, a, h₁, hsuffix.trans (List.suffix_append _ _), hrun.tail hm.step, hcrash⟩
    cases hm with
    | pass time => exact hbefore v hc hv
    | enter c₁ o' hc₁ =>
      rw [calls_visit] at hc
      rcases Table.get?_put_eq_some hc with ⟨-, rfl⟩ | ⟨-, hc⟩
      · cases hv
      · exact hbefore v hc hv
    | hear hc₁ hv₁ hq hr =>
      rw [calls_visit, hr.calls_eq] at hc
      rcases Table.get?_put_eq_some hc with ⟨-, rfl⟩ | ⟨-, hc⟩
      · cases hv
      · exact hbefore v hc hv
    | leave hc₁ hv₁ hj =>
      rw [calls_visit] at hc
      rcases Table.get?_put_eq_some hc with ⟨-, rfl⟩ | ⟨-, hc⟩
      · cases hv
      · exact hbefore v hc hv
    | await hc₁ hv₁ ht =>
      rw [calls_visit] at hc
      rcases Table.get?_put_eq_some hc with ⟨-, rfl⟩ | ⟨-, hc⟩
      · exact nomatch hv₁.symm.trans hv
      · exact hbefore v hc hv
    | @crash c₁ t v₁ a cache why next hc₁ hv₁ ht hnow hout =>
      rw [calls_visit] at hc
      rcases Table.get?_put_eq_some hc with ⟨rfl, -⟩ | ⟨-, hc⟩
      · exact ⟨ts, s, a, h, List.suffix_append _ _, .single (.crash hc₁ hv₁ ht hnow hout),
          ⟨v₁, next, t, hc₁, hv₁, ht⟩, why, cache, hout⟩
      · exact hbefore v hc hv
    | start hj ht => exact hbefore v hc hv
    | finish hj hended ht hnow => exact hbefore v hc hv
    | lose hj hended ht => exact hbefore v hc hv

/-! ### Entries at the end of the range -/

/-- An entry of an item is live and at the end of the range, and came about by a lost race. -/
def Overrun (s : Traffic S) (i : Item) : Prop :=
  ∃ e ∈ s.cache.entries, e.name = i.cacheKey ∧ s.now < e.expiresAt ∧
    e.counts.reads = Int64.maxValue ∧
    ∃ g : Origin s.history i, Explains False s.limit s.cache.lifetime e g ∧ ¬ g.Undisturbed

/-- Reads are counted one by one. -/
theorem by_of_mem_adjustments {w : Write} {a : Adjustment} (ha : a ∈ w.adjustments)
    (hk : a.counter = .reads) : a.by_ = 1 := by
  cases w with
  | read j =>
    obtain rfl := List.mem_singleton.mp ha
    rfl
  | readAll js =>
    obtain ⟨j, -, rfl⟩ := List.mem_map.mp ha
    rfl
  | like j user => obtain rfl := List.mem_singleton.mp ha; cases hk
  | unlike j user => obtain rfl := List.mem_singleton.mp ha; cases hk
  | collect j user folder => obtain rfl := List.mem_singleton.mp ha; cases hk
  | uncollect j user folder => obtain rfl := List.mem_singleton.mp ha; cases hk

theorem exists_mem_adjustments {h : History} {a : Adjustment} (ha : a ∈ h.changes) :
    ∃ w : Write, a ∈ w.adjustments := by
  obtain ⟨⟨t, d⟩, -, hd⟩ := List.mem_flatMap.mp ha
  cases d with
  | recorded c w => exact ⟨w, hd⟩
  | looked | found | left | placed | settled => cases hd

/-- If reads are counted one by one, it matters only how many there are. -/
theorem total_reads_eq_count {as : List Adjustment}
    (h : ∀ a ∈ as, a.counter = .reads → a.by_ = 1) :
    Adjustment.total i .reads as = as.count ⟨i, .reads, 1⟩ := by
  induction as with
  | nil => rfl
  | cons a as ih =>
    have has := ih fun b hb => h b (List.mem_cons_of_mem a hb)
    have ha := h a List.mem_cons_self
    obtain ⟨j, k, n⟩ := a
    rw [Adjustment.total_cons, has, List.count_cons]
    by_cases hik : j = i ∧ k = .reads
    · obtain ⟨rfl, rfl⟩ := hik
      obtain rfl : n = 1 := ha rfl
      rw [if_pos ⟨rfl, rfl⟩, if_pos (beq_self_eq_true _), Int64.toInt_one]
      omega
    · rw [if_neg hik, if_neg (by simpa using fun hj hk _ => hik ⟨hj, hk⟩)]
      omega

theorem count_applied_le (h : History) (a : Adjustment) :
    h.applied.count a ≤ h.endings.count a := by
  induction h with
  | nil => exact Nat.le_refl _
  | cons x h ih =>
    obtain ⟨t, d⟩ := x
    rw [History.applied_cons, History.endings_cons, List.count_append, List.count_append]
    refine Nat.add_le_add ?_ ih
    cases d with
    | settled b took => cases took <;> simp [Deed.applied, Deed.endings]
    | looked | found | recorded | left | placed => exact Nat.le_refl _

/-- If no race was lost, the row of an item is ahead of its entry by the reads that the entry has
yet to follow. -/
theorem Sound.lt_of_pending {p : Prop} {reg : Registry S} (hs : Sound p reg s) {e : Entry}
    {g : Origin s.history i} (hg : Explains p s.limit s.cache.lifetime e g) (hund : g.Undisturbed)
    (hpending : .adjust ⟨i, .reads, 1⟩ ∈ s.pending) :
    e.counts.reads.toInt < Row.amount (reg.row s.store i) .reads := by
  have hchanges : ∀ a ∈ s.history.changes, a.counter = .reads → a.by_ = 1 := by
    intro a ha hk
    obtain ⟨w, hw⟩ := exists_mem_adjustments ha
    exact by_of_mem_adjustments hw hk
  have happlied : ∀ a ∈ s.history.applied, a ∈ s.history.changes := by
    intro a ha
    have hle := count_applied_le s.history a
    have hbal := hs.balanced a
    have hpos := List.count_pos_iff.mpr ha
    exact List.count_pos_iff.mp (by omega)
  -- the same, said of what has happened since the entry was set
  have hafter : ∀ a ∈ g.after.changes, a ∈ s.history.changes := by
    intro a ha
    rw [g.history_eq, History.changes_append]
    exact List.mem_append_left _ ha
  have hafter' : ∀ a ∈ g.after.applied, a ∈ s.history.applied := by
    intro a ha
    rw [g.history_eq, History.applied_append]
    exact List.mem_append_left _ ha
  have hlt : g.after.applied.count ⟨i, .reads, 1⟩ < g.after.changes.count ⟨i, .reads, 1⟩ := by
    have hle := count_applied_le g.after ⟨i, .reads, 1⟩
    have hplaced := hund.2 g.between List.suffix_rfl ⟨i, .reads, 1⟩ rfl
    have hbal := hs.balanced ⟨i, .reads, 1⟩
    have hpos := List.count_pos_iff.mpr hpending
    rw [g.history_eq, History.changes_append, History.changes_cons, History.endings_append,
      History.endings_cons] at hbal
    simp only [Deed.changes, Deed.endings, List.nil_append, List.count_append] at hbal
    omega
  have hrow := (hs.moved_origin g).amount .reads
  rw [Row.amount_some, g.changes_newer, Adjustment.total_append,
    Adjustment.total_eq_zero hund.1, Int.add_zero,
    total_reads_eq_count fun a ha => hchanges a (hafter a ha)] at hrow
  have hentry := hg.counts_eq .reads
  rw [total_reads_eq_count fun a ha => hchanges a (happlied a (hafter' a ha))] at hentry
  change (e.counts.get .reads).toInt < _
  omega

/-- A call crashes only when it has counted a read of an item whose entry is at the end of the
range. -/
theorem overrun_of_crashing {reg : Registry S} {store : S} {o : Cache.Options} {a : Adjustment}
    (h : Course reg.toSite (opening limit store o) ts s) (hcrash : s.Crashing c a) :
    ∃ i t, a = ⟨i, .reads, 1⟩ ∧ (t, .wrote c (.read i) (.ok true)) ∈ ts ∧ s.Overrun i := by
  obtain ⟨v, next, t₁, hc, hv, ht⟩ := hcrash.asked
  have hlife := h.life c
  rw [hc] at hlife
  have hmem : ∀ x ∈ ts.ofCall c, x ∈ ts := fun x hx => (Turns.mem_ofCall.mp hx).1
  generalize ts.ofCall c = ts' at hlife hmem
  cases hlife with
  | looking => cases ht
  | fresh => cases ht
  | told => cases ht
  | followed => cases ht
  | crashed => cases ht
  | @awaiting o' i t₀ _ next' hnext =>
    cases hv
    refine ⟨i, t₀, rfl, hmem _ (by simp), ?_⟩
    obtain ⟨why, cache, hout⟩ := hcrash.crash
    have hs := (Run.runIf h.run).sound (.opening limit store o)
    rcases Cache.adjust_cases s.cache s.now i .reads 1 with
      ⟨e, n, -, -, -, ha⟩ | ⟨e, he, hlive, hn, -⟩ | ⟨e, -, -, ha⟩ | ⟨-, ha⟩
    · cases ha.symm.trans hout
    · obtain ⟨hheld, hname⟩ := Cache.lookup?_eq_some he
      have hmax : e.counts.reads = Int64.maxValue := by
        by_contra hne
        have hlt : e.counts.reads.toInt < Int64.maxValue.toInt :=
          lt_of_le_of_ne (Int64.toInt_le _) fun heq => hne (Int64.toInt_inj.mp heq)
        obtain ⟨w, hw⟩ := Word.exists_toInt_eq (a := e.counts.reads) (b := Int64.maxValue)
          (n := e.counts.reads.toInt + 1) (by omega) (by omega)
        rw [Counts.add?_eq_some (k := .reads) (d := 1) hw] at hn
        cases hn
      obtain ⟨j, g, hg⟩ := hs.explained e hheld
      obtain rfl : j = i := Item.cacheKey_injective (hg.name_eq.symm.trans hname)
      refine ⟨e, hheld, hname, hlive, hmax, g, hg, ?_⟩
      intro hund
      have hdue : Upkeep.adjust ⟨j, .reads, 1⟩ ∈ s.pending :=
        List.mem_append_left _ (List.mem_flatMap.mpr ⟨_, Table.mem_of_get?_eq_some hc, by
          simp [Visit.due]⟩)
      have hlt := hs.lt_of_pending hg hund hdue
      rw [hmax] at hlt
      exact absurd (Int64.toInt_le _) (not_le.mpr hlt)
    · cases ha.symm.trans hout
    · cases ha.symm.trans hout

/-! ### Reads -/

/-- A call has one write answered at most. -/
theorem Life.eq_of_wrote {o : Option Visit} (h : Life limit c ts o) {t t' : Nat} {w w' : Write}
    {x x' : Except StoreFailure Bool} (hw : (t, .wrote c w x) ∈ ts)
    (hw' : (t', .wrote c w' x') ∈ ts) : w = w' := by
  cases h with
  | absent => cases hw
  | fresh => cases hw
  | looking ho hd hdue hts =>
    obtain ⟨t₁, j, n, k, heq⟩ := hts _ hw
    cases heq
  | told ho hdue hd hwhy =>
    cases eq_of_wrote_mem_told hw
    cases eq_of_wrote_mem_told hw'
    rfl
  | awaiting => simp_all
  | followed => simp_all
  | crashed => simp_all

/-- A call that has changed something will say so, whatever it is told, or it is speechless. -/
theorem Life.settled_of_wrote {o : Option Visit} (h : Life limit c ts o) {t : Nat} {w : Write}
    (hw : (t, .wrote c w (.ok true)) ∈ ts) :
    ∃ v, o = some v ∧ (∀ t', v.since = some t' → ∃ a, (t', .asked c a) ∈ ts) ∧
      (v.rest = none ∨ ∃ d awaits, v.rest = some d ∧ Call.Settled awaits (.ok .recorded) d) := by
  cases h with
  | absent => cases hw
  | fresh => cases hw
  | looking ho hd hdue hts =>
    obtain ⟨t₁, j, n, k, heq⟩ := hts _ hw
    cases heq
  | @told o' w' x t₀ l d ho hdue hd hwhy =>
    cases eq_of_wrote_mem_told hw
    exact ⟨_, rfl, nofun, .inr ⟨d, _, rfl, hd⟩⟩
  | @awaiting o' i t₀ t₁ next hnext =>
    refine ⟨_, rfl, ?_, .inr ⟨_, true, rfl, .inr ⟨rfl, _, next, rfl, fun b => ?_⟩⟩⟩
    · intro t' ht'
      cases ht'
      exact ⟨_, List.mem_cons_self⟩
    · exact (hnext b).imp (fun q ⟨r, hr⟩ => hr ▸ rfl) (fun _ _ => id) fun _ => id
  | followed htook hd =>
    refine ⟨_, rfl, nofun, .inr ⟨_, false, rfl, .inl ?_⟩⟩
    exact hd.imp (fun q ⟨r, hr⟩ => hr ▸ rfl) (fun _ _ => id) fun _ => id
  | crashed => exact ⟨_, rfl, nofun, .inl rfl⟩

/-- **A read that was counted comes back**, whatever the cache makes of it: its result is settled,
and it needs nobody's help to come to its end within the time limit. The one exception is a read
that crashed, and at that moment an entry of the item was live and at the end of the range that had
come about by a lost race. -/
theorem Course.read_returns {reg : Registry S} {store : S} {o : Cache.Options} {t : Nat}
    (h : Course reg.toSite (opening limit store o) ts s)
    (hread : (t, .wrote c (.read i) (.ok true)) ∈ ts) :
    ∃ v, s.calls.get? c = some v ∧
      ((∃ d awaits, v.rest = some d ∧ Call.Settled awaits (.ok .recorded) d ∧
          ∃ s' v', Run reg.toSite s s' ∧ s'.now ≤ s.now + s.limit ∧ s'.calls.get? c = some v' ∧
            v'.rest = some (.done (.ok .recorded))) ∨
        v.rest = none ∧ ∃ s₁, Run reg.toSite (opening limit store o) s₁ ∧ Run reg.toSite s₁ s ∧
          s₁.Overrun i) := by
  have hlife := h.life c
  have hmem := Turns.mem_ofCall.mpr ⟨hread, rfl⟩
  obtain ⟨v, hc, hasked, hrest⟩ := hlife.settled_of_wrote hmem
  refine ⟨v, hc, ?_⟩
  rcases hrest with hv | ⟨d, awaits, hv, hd⟩
  · right
    obtain ⟨older, s₁, a, h₁, hsuffix, hrun, hcrash⟩ := h.exists_crash hc hv
    obtain ⟨i', t', -, hread', hover⟩ := overrun_of_crashing h₁ hcrash
    have hmem' := Turns.mem_ofCall.mpr ⟨hsuffix.subset hread', rfl⟩
    cases hlife.eq_of_wrote hmem hmem'
    exact ⟨hv, s₁, h₁.run, hrun, hover⟩
  · left
    refine ⟨d, awaits, hv, hd, exists_run_of_settled _ hd hc hv ?_⟩
    intro t' ht'
    obtain ⟨a, ha⟩ := hasked t' ht'
    exact h.past _ (Turns.mem_ofCall.mp ha).1

section Full

open Ledger

/-- The article after some reads. -/
def readTimes (n : Int64) : Ledger := { counts := [(article, ⟨n, 0, 0⟩)] }

/-- A read is counted, and its call comes to its end. -/
theorem read_returns_untouched : ∃ s' v', Run registry.toSite (opening 500 untouched {}) s' ∧
    s'.now ≤ 500 ∧ s'.calls.get? 0 = some v' ∧ v'.rest = some (.done (.ok .recorded)) := by
  have h₀ : Course registry.toSite (opening 500 untouched {}) [] _ := .start
  have h₁ := h₀.next (.enter _ 0 (.record (.read article)) rfl)
  have h₂ := h₁.next (.hear (c := 0) rfl rfl nofun (.store _))
  have hread := Course.read_returns (c := 0) (i := article) (t := 0) h₂ List.mem_cons_self
  obtain ⟨v, hc, ⟨d, awaits, hv, hd, s', v', hrun, hnow, hc', hv'⟩ | ⟨hv, -⟩⟩ := hread
  · exact ⟨s', v', h₂.run.trans hrun, hnow, hc', hv'⟩
  · cases hc
    cases hv

/-- A read is told by the store, and its entry set, before its adjustment is made. -/
theorem exists_course_ahead : ∃ ts s,
    Course registry.toSite (opening 500 (readTimes 9223372036854775805) {}) ts s ∧
    s.now = 0 ∧ s.store = readTimes 9223372036854775806 ∧ s.calls.get? 2 = none ∧
    s.jobs.get? 0 = some ⟨.adjust ⟨article, .reads, 1⟩, 0, none, false⟩ ∧
    s.cache.entries = [⟨article.cacheKey, ⟨9223372036854775806, 0, 0⟩, 900000⟩] := by
  have h₀ : Course registry.toSite (opening 500 (readTimes 9223372036854775805) {}) [] _ := .start
  have h₁ := h₀.next (.enter _ 0 (.record (.readAll [article])) rfl)
  have h₂ := h₁.next (.hear (c := 0) rfl rfl nofun (.store _))
  have h₃ := h₂.next (.leave (c := 0) (j := 0) rfl rfl rfl)
  have h₄ := h₃.next (.enter _ 1 (.counts article) rfl)
  have h₅ := h₄.next (.hear (c := 1) rfl rfl nofun (.cached article))
  have h₆ := h₅.next (.hear (c := 1) rfl rfl nofun (.reported _))
  have h₇ := h₆.next (.hear (c := 1) rfl rfl nofun (.store _))
  have h₈ := h₇.next (.leave (c := 1) (j := 1) rfl rfl rfl)
  have h₉ := h₈.next (.start (j := 1) rfl rfl)
  have h₁₀ := h₉.next (.finish (j := 1) rfl rfl rfl (by decide))
  exact ⟨_, _, h₁₀, rfl, rfl, rfl, rfl, rfl⟩

/-- An adjustment of the only entry. -/
theorem adjust_of_entries_eq {c : Cache} {now expiresAt : Nat} {n : Counts} (k : Counter)
    (by_ : Int64) (hc : c.entries = [⟨i.cacheKey, n, expiresAt⟩]) (hlive : now < expiresAt) :
    (∀ m, n.add? k by_ = some m →
      (c.adjust now i k by_).2.entries = [⟨i.cacheKey, m, expiresAt⟩]) ∧
    (n.add? k by_ = none →
      ∃ cache, c.adjust now i k by_ = (.error .counterOverflow, cache)) := by
  have hlookup : c.lookup? i.cacheKey = some ⟨i.cacheKey, n, expiresAt⟩ := by
    simp [Cache.lookup?, hc]
  constructor
  · intro m hm
    have hroom : 1 ≤ c.room := Nat.le_max_right _ _
    simp [Cache.adjust, hlookup, hlive, hm, Cache.hold, hc, List.take_of_length_le, hroom]
  · intro hn
    refine ⟨{ c.hold ⟨i.cacheKey, n, expiresAt⟩ with tainted := true }, ?_⟩
    simp only [Cache.adjust, hlookup, if_pos hlive, hn]

/-- After its adjustment, the entry is a read ahead. The next read is the last that the store can
count, and crashes. -/
theorem exists_course_overrun : ∃ ts s,
    Course registry.toSite (opening 500 (readTimes 9223372036854775805) {}) ts s ∧
      (0, .wrote 2 (.read article) (.ok true)) ∈ ts ∧
      ∃ v, s.calls.get? 2 = some v ∧ v.rest = none := by
  obtain ⟨ts, s, h, hnow, hstore, hcalls, hjobs, hentries⟩ := exists_course_ahead
  have hanswer : answer (.write (.read article)) s.store
      = (.ok true, readTimes 9223372036854775807) := by
    rw [hstore]
    rfl
  have hlive : s.now < 900000 := by omega
  have hahead := (adjust_of_entries_eq .reads 1 hentries hlive).1 ⟨9223372036854775807, 0, 0⟩ rfl
  obtain ⟨cache, hcrash⟩ := (adjust_of_entries_eq .reads 1 hahead hlive).2 rfl
  have h₁ := h.next (.start (j := 0) hjobs rfl)
  have h₂ := h₁.next (.finish (j := 0) (by rw [jobs_chore, Table.get?_put]; rfl) rfl rfl
    (Nat.le_add_right _ _))
  have h₃ := h₂.next (.enter _ 2 (.record (.read article)) hcalls)
  have h₄ := h₃.next (.hear (c := 2) get?_calls_visit rfl nofun (.answered hanswer))
  have h₅ := h₄.next (.await (c := 2) get?_calls_visit rfl rfl)
  have h₆ := h₅.next (.crash (c := 2) get?_calls_visit rfl rfl (Nat.le_add_right _ _) hcrash)
  refine ⟨_, _, h₆, List.mem_of_getElem? (i := 2) ?_, _, get?_calls_visit, rfl⟩
  exact congrArg (fun n => some (n, Turn.wrote 2 (.read article) (.ok true))) hnow

end Full

end Traffic

end Popularity
