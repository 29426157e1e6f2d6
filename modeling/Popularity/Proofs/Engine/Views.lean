import Popularity.Proofs.Engine.Replies
import Popularity.Proofs.Table

/-!
# Items as everybody sees them

Several items of a kind are shown as the store lists them: it is asked once, and nobody else is
asked anything. One item is shown as the cache has it, but a cache that holds nothing, or none at
all, leaves it to the store as well.

## Main definitions

* `Service.shown` — what is shown of one item
* `Service.gathered` — what is shown of several
* `Uncached` — a scene where a single read is left to the store

## Main results

* `Service.run_byId`, `Service.get?_gathered`
* `Site.play_byId`, `Site.play_publicSummary`
-/

namespace Popularity

namespace Service

/-! ### What the store said -/

/-- What is shown of an item, given what the store said of its counts. -/
def shown (i : Item) : Except StoreFailure (Option Counts) → Except CallFailure Summary
  | .ok (some n) => .ok (.ofCounts i n)
  | .ok none => .error (.uncounted i)
  | .error why => .error (.store why)

/-- What is shown of the items that the store has listed, under their ids. -/
def gathered (l : List (Item × Counts)) : Table Int64 Summary :=
  (l.map fun r => Summary.ofCounts r.1 r.2).foldl (fun t s => t.put s.item.id s) []

/-- Several items are asked of the store, once, and nothing else is asked of anybody. -/
theorem run_byId (kind : String) (ids : List Int64) :
    (byId kind ids).run =
      .ask (.store (.countsOf kind ids)) fun x => .done (Call.taken gathered x) := by
  change Dialogue.ask _ _ = Dialogue.ask _ _
  congr 1
  funext x
  cases x <;> rfl

/-- Without the cache, one item is asked of the store, and nothing that comes then changes the
result. -/
theorem exists_run_publicSummary (i : Item) : ∃ next afterStore,
    (publicSummary i).run = .ask (.cached i) next ∧
      (next (.ok none) = .ask (.report (.count .cacheMiss)) fun _ =>
        .ask (.store (.counts i)) afterStore) ∧
      ∀ x, (afterStore x).Meets (fun q => q.isAside = true) (fun _ _ => True) (· = shown i x) := by
  refine ⟨_, _, rfl, rfl, fun x => ?_⟩
  rcases x with why | _ | n
  · rfl
  · rfl
  · exact ⟨rfl, fun _ _ => rfl⟩

variable {l : List (Item × Counts)}

/-- Under distinct ids no item takes the place of another. -/
theorem gathered_eq (h : (l.map fun r => r.1.id).Nodup) :
    gathered l = l.map fun r => (r.1.id, Summary.ofCounts r.1 r.2) := by
  have hkeys : (([] : Table Int64 Summary).map (·.1) ++
      (l.map fun r => Summary.ofCounts r.1 r.2).map fun s => s.item.id).Nodup := by
    rwa [List.map_map]
  rw [gathered, Table.foldl_put (fun s : Summary => s.item.id) hkeys, List.map_map]
  rfl

theorem nodup_gathered (h : (l.map fun r => r.1.id).Nodup) : ((gathered l).map (·.1)).Nodup := by
  rw [gathered_eq h, List.map_map]
  exact h

theorem get?_gathered (h : (l.map fun r => r.1.id).Nodup) {id : Int64} {s : Summary} :
    (gathered l).get? id = some s ↔ ∃ i n, (i, n) ∈ l ∧ i.id = id ∧ s = .ofCounts i n := by
  rw [Table.get?_eq_some_iff (nodup_gathered h), gathered_eq h, List.mem_map]
  constructor
  · rintro ⟨⟨i, n⟩, hmem, heq⟩
    cases heq
    exact ⟨i, n, hmem, rfl, rfl⟩
  · rintro ⟨i, n, hmem, rfl, rfl⟩
    exact ⟨(i, n), hmem, rfl⟩

end Service

/-! ### Calls -/

/-- Whether a single read is left to the store: nothing is in its way, and the cache, if there is
one, is empty. -/
structure Uncached {S : Type} (s : Scene S (Option Cache)) : Prop where
  empty : ∀ c ∈ s.2.cache, c.entries = []
  cacheTroubles : s.2.cacheTroubles = []
  storeTroubles : s.2.storeTroubles = []

namespace Site

variable {S C : Type}

/-- **Several items** are shown as the store lists them, if nothing is in its way. -/
theorem play_byId [CacheKind C] (site : Site S) (kind : String) (ids : List Int64) {s : Scene S C}
    (h : s.2.storeTroubles = []) : ∃ s', (site.call (Service.byId kind ids)).play s =
      (.ok (Call.taken Service.gathered (site.answer (.countsOf kind ids) s.2.store).1), s') := by
  obtain ⟨s', hplay, -⟩ := site.play_request (.countsOf kind ids) s
  rw [h] at hplay
  have hreply : (site.reply (.store (.countsOf kind ids))).play s =
      (.ok (site.answer (.countsOf kind ids) s.2.store).1, s') := hplay
  exact ⟨s', by rw [call, Service.run_byId, play_run_ask hreply, play_run_done]⟩

/-- An empty cache has no counts, and neither has none. -/
theorem play_cached_of_uncached (site : Site S) (i : Item) {s : Scene S (Option Cache)}
    (h : Uncached s) : ∃ s', (site.reply (.cached i)).play s = (.ok (.ok none), s') ∧
      Steady s s' := by
  have hsteady := Act.steady_cache (s := s) (.get i)
  have hnone : ((Action.cache (.get i)).play s).1 = .ok (.ok none) := by
    obtain ⟨hempty, htroubles, -⟩ := h
    obtain ⟨crew, store, cache, storeTroubles, cacheTroubles, steps, reports⟩ := s
    obtain rfl : cacheTroubles = [] := htroubles
    cases cache with
    | none => rfl
    | some c =>
      obtain ⟨capacity, lifetime, entries, tainted⟩ := c
      obtain rfl : entries = [] := hempty _ rfl
      rfl
  exact ⟨_, Prod.ext hnone rfl, hsteady⟩

/-- **One item** is shown as the store has it, if it is left to the store. -/
theorem play_publicSummary (site : Site S) (i : Item) {s : Scene S (Option Cache)}
    (h : Uncached s) : ∃ s', (site.call (Service.publicSummary i)).play s =
      (.ok (Service.shown i (site.answer (.counts i) s.2.store).1), s') := by
  obtain ⟨next, afterStore, hrun, hnext, hafter⟩ := Service.exists_run_publicSummary i
  obtain ⟨s₁, h₁, hsteady⟩ := site.play_cached_of_uncached i h
  obtain ⟨s₂, h₂, -⟩ := site.play_request (.counts i) (s₁.1, s₁.2.tell [.count .cacheMiss])
  have htroubles : (s₁.2.tell [.count .cacheMiss]).storeTroubles = [] :=
    hsteady.storeTroubles_eq.trans h.storeTroubles
  have hsame : (s₁.2.tell [.count .cacheMiss]).store = s.2.store := hsteady.store_eq
  rw [htroubles, hsame] at h₂
  have hreport : (site.reply (.report (.count .cacheMiss))).play s₁ =
      (.ok (), s₁.1, s₁.2.tell [.count .cacheMiss]) := rfl
  have hreply : (site.reply (.store (.counts i))).play (s₁.1, s₁.2.tell [.count .cacheMiss]) =
      (.ok (site.answer (.counts i) s.2.store).1, s₂) := h₂
  obtain ⟨rs, h₃⟩ := site.play_aside (hafter (site.answer (.counts i) s.2.store).1) s₂
  refine ⟨_, Eq.trans ?_ h₃⟩
  rw [call, hrun, play_run_ask h₁, hnext, play_run_ask hreport, play_run_ask hreply]

end Site

end Popularity
