import Popularity.Proofs.Traffic.Origins

/-!
# How far an entry is from its row

An entry and the row of its item were the same when the row was told. Since then the row has moved
by the changes made in the store, and the entry, since it was set, by the adjustments made in the
cache. Nothing else has moved either. So their difference is known from the history at any time, and
the races that let them part for good are those in which a change and its adjustment fall on
different sides: the change before the row was told and its adjustment after the entry was set, or
the change after the one and its adjustment before the other.

## Main definitions

* `History.Settled`, `Traffic.Origin.Undisturbed`, `Traffic.Followed`

## Main results

* `Traffic.settled_iff` — no adjustment is pending
* `Traffic.Run.drift`
-/

namespace Popularity

/-! ### Adjustments that agree -/

/-- Adjustments of an item that are the same, in any order, move its counters the same way. -/
theorem Adjustment.total_eq_of_count_eq {i : Item} {k : Counter} {as bs : List Adjustment}
    (h : ∀ a, a.item = i → as.count a = bs.count a) : total i k as = total i k bs := by
  suffices h : total i k (as.filter (·.item = i)) = total i k (bs.filter (·.item = i)) by
    rwa [total_filter, total_filter] at h
  refine total_perm (List.perm_iff_count.mpr fun a => ?_)
  by_cases ha : a.item = i
  · rw [List.count_filter (by simpa using ha), List.count_filter (by simpa using ha), h a ha]
  · rw [List.count_eq_zero.mpr (by simp [ha]), List.count_eq_zero.mpr (by simp [ha])]

namespace History

/-- Whether every change of an item has had its adjustment. -/
def Settled (i : Item) (h : History) : Prop :=
  ∀ a : Adjustment, a.item = i → h.changes.count a = h.endings.count a

/-- Adjustments that have all done something are as many as have come to their end. -/
theorem count_applied {h : History} {a : Adjustment} (ha : ∀ t, (t, .settled a false) ∉ h) :
    h.applied.count a = h.endings.count a := by
  induction h with
  | nil => rfl
  | cons x h ih =>
    rw [applied_cons, endings_cons, List.count_append, List.count_append,
      ih fun t ht => ha t (List.mem_cons_of_mem _ ht)]
    congr 1
    obtain ⟨t, d⟩ := x
    cases d with
    | settled b took =>
      cases took with
      | true => rfl
      | false =>
        have hne : b ≠ a := by
          rintro rfl
          exact ha t List.mem_cons_self
        simp [Deed.applied, Deed.endings, hne]
    | looked | found | recorded | left | placed => rfl

end History

namespace Traffic

variable {S : Type} {site : Registry S} {s : Traffic S} {i : Item}

/-- All changes of an item have had their adjustments just when none is pending. -/
theorem settled_iff (hs : Balanced s) :
    s.history.Settled i ↔ ∀ a : Adjustment, a.item = i → .adjust a ∉ s.pending := by
  refine forall_congr' fun a => forall_congr' fun _ => ?_
  rw [← List.count_eq_zero, hs a]
  omega

/-! ### Races -/

/-- While its row was on the way to the cache, no change of the item was made, and none was waiting
for its adjustment at any time. -/
def Origin.Undisturbed {h : History} (g : Origin h i) : Prop :=
  (∀ a ∈ g.between.changes, a.item ≠ i) ∧ ∀ m, m <:+ g.between →
    History.Settled i (m ++ (g.foundAt, .found g.call i (some g.counts)) :: g.before)

/-- Whether every adjustment of the item that came up since its entry was set has been made. -/
def Followed (s : Traffic S) (g : Origin s.history i) : Prop :=
  (∀ a, .adjust a ∈ s.pending → a.item ≠ i) ∧ ∀ t a, (t, .settled a false) ∈ g.after → a.item ≠ i

/-- If no race was lost, the changes made since and the adjustments made since agree. -/
theorem Followed.count_eq (hs : Balanced s) {g : Origin s.history i} (hf : Followed s g)
    (hg : g.Undisturbed) {a : Adjustment} (ha : a.item = i) :
    g.after.changes.count a = g.after.applied.count a := by
  have hnow : s.history.Settled i := (settled_iff hs).mpr fun b hb hmem => hf.1 b hmem hb
  have hwhole := hnow a ha
  have hplaced := hg.2 g.between List.suffix_rfl a ha
  rw [g.history_eq, History.changes_append, History.changes_cons, History.endings_append,
    History.endings_cons] at hwhole
  simp only [Deed.changes, Deed.endings, List.nil_append, List.count_append] at hwhole
  rw [History.count_applied fun t ht => hf.2 t a ht ha]
  omega

/-! ### Drift -/

/-- **Exact drift.** However calls and jobs take their turns, the difference of a row and its entry
is what was changed in the store since the row was told, less what was adjusted in the cache since
the entry was set. There is none if no race was lost. -/
theorem Run.drift {limit : Nat} {store : S} {o : Cache.Options} {e : Entry}
    (h : Run site.toSite (opening limit store o) s) (he : e ∈ s.cache.entries)
    (hname : e.name = i.cacheKey) :
    ∃ (g : Origin s.history i) (r : Counts), site.row s.store i = some r ∧
      (∀ k, (r.get k).toInt - (e.counts.get k).toInt =
        Adjustment.total i k g.newer.changes - Adjustment.total i k g.after.applied) ∧
      (g.Undisturbed → Followed s g → r = e.counts) := by
  have hs := (Run.runIf h).sound (.opening limit store o)
  obtain ⟨j, g, hg⟩ := hs.explained e he
  obtain rfl : j = i := Item.cacheKey_injective (hg.name_eq.symm.trans hname)
  have hmoved := hs.moved_origin g
  obtain ⟨r, hr⟩ := Option.isSome_iff_exists.mp (hmoved.isSome_iff.mpr (.inl rfl))
  have hdrift : ∀ k, (r.get k).toInt - (e.counts.get k).toInt =
      Adjustment.total j k g.newer.changes - Adjustment.total j k g.after.applied := by
    intro k
    have hrow := hmoved.amount k
    rw [hr, Row.amount_some, Row.amount_some] at hrow
    rw [hrow, hg.counts_eq]
    omega
  refine ⟨g, r, hr, hdrift, fun hund hfol => Counts.eq_of_toInt_get_eq fun k => ?_⟩
  have hafter : Adjustment.total j k g.after.changes = Adjustment.total j k g.after.applied :=
    Adjustment.total_eq_of_count_eq fun a ha => hfol.count_eq hs.balanced hund ha
  have hk := hdrift k
  rw [g.changes_newer, Adjustment.total_append, Adjustment.total_eq_zero hund.1, hafter] at hk
  omega

/-! ### A lost race -/

section Race

open Ledger

/-- An article is liked, and the adjustment of the cache finds no entry, between the answer of the
store and the setting of the entry. -/
theorem exists_run_race : ∃ s : Traffic Ledger, Run registry.toSite (opening 500 untouched {}) s ∧
    s.cache.entries = [⟨article.cacheKey, .zero, 900000⟩] ∧ s.store = liked := by
  have h₁ := (Relation.ReflTransGen.refl (r := Step registry.toSite)
    (a := opening 500 untouched {})).tail (.enter _ 0 (.counts article) rfl)
  have h₂ := h₁.tail (.hear (c := 0) rfl rfl (.cached article))
  have h₃ := h₂.tail (.hear (c := 0) rfl rfl (.reported _))
  have h₄ := h₃.tail (.hear (c := 0) rfl rfl (.answered answer_untouched))
  -- the like and its adjustment, which is done by job 0
  have h₅ := h₄.tail (.enter _ 1 (.record (.like article 7)) rfl)
  have h₆ := h₅.tail (.hear (c := 1) rfl rfl (.answered answer_like))
  have h₇ := h₆.tail (.hear (c := 1) rfl rfl (.detached _ 0 rfl))
  have h₈ := h₇.tail (.start (j := 0) rfl rfl)
  have h₉ := h₈.tail (.finish (j := 0) rfl rfl rfl (by decide))
  -- the setting of the entry, which is done by job 1
  have h₁₀ := h₉.tail (.hear (c := 0) rfl rfl (.detached _ 1 rfl))
  have h₁₁ := h₁₀.tail (.start (j := 1) rfl rfl)
  have h₁₂ := h₁₁.tail (.finish (j := 1) rfl rfl rfl (by decide))
  exact ⟨_, h₁₂, rfl, rfl⟩

/-- The entry stays one like behind. -/
theorem drift_race : ∃ (s : Traffic Ledger) (e : Entry) (g : Origin s.history article),
    Run registry.toSite (opening 500 untouched {}) s ∧ e ∈ s.cache.entries ∧
      Adjustment.total article .likes g.newer.changes
        - Adjustment.total article .likes g.after.applied = 1 := by
  obtain ⟨s, hrun, hentries, hstore⟩ := exists_run_race
  have he : ⟨article.cacheKey, .zero, 900000⟩ ∈ s.cache.entries := by simp [hentries]
  obtain ⟨g, r, hr, hdrift, -⟩ := Run.drift hrun he rfl
  refine ⟨s, _, g, hrun, he, (hdrift .likes).symm.trans ?_⟩
  rw [hstore] at hr
  cases (show some (⟨0, 1, 0⟩ : Counts) = some r from hr)
  rfl

end Race

end Traffic

end Popularity
