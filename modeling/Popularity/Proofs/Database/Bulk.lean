import Popularity.Proofs.Database.Lookups
import Popularity.Proofs.Engine.Views

/-!
# Reading in bulk

Many items of a kind can be read by one statement. Where no two rows are of the same item, it finds
what as many statements for single items find, with the rows of each item once and in ascending
order; ids without a row, ids that are listed again and the order of the list make no difference. A
kind that no table can hold is refused either way, except that there is nothing to send for no ids.

Users are shown the items under their ids alone. Nothing is lost by that: the rows are all of one
kind, so two of them never have the same id.

## Main definitions

* `Server.find?`, `Server.findAll` — a search for one row, and for many

## Main results

* `Statement.mem_execSelectOf`, `Statement.pairwise_execSelectOf`
* `Server.Calm.find?_eq`, `Server.Calm.findAll_eq`
* `bulk_reads_agree`
-/

namespace Popularity

/-! ### Rows -/

namespace Statement

variable {t : Tables} {kind : String} {ids : List Int64}

theorem mem_execSelectOf {r : Item × Stamped Counts} :
    r ∈ execSelectOf kind ids t ↔ r ∈ t.counts ∧ r.1.kind = kind ∧ r.1.id ∈ ids := by
  simp [execSelectOf]

/-- **Rows are found once each, in ascending order.** -/
theorem pairwise_execSelectOf (h : (t.counts.map (·.1)).Nodup) :
    (execSelectOf kind ids t).Pairwise fun a b => a.1.id < b.1.id := by
  have htrans (a b c : Item × Stamped Counts) (hab : decide (a.1.id ≤ b.1.id) = true)
      (hbc : decide (b.1.id ≤ c.1.id) = true) : decide (a.1.id ≤ c.1.id) = true :=
    decide_eq_true (Int64.le_trans (of_decide_eq_true hab) (of_decide_eq_true hbc))
  have htotal (a b : Item × Stamped Counts) :
      (decide (a.1.id ≤ b.1.id) || decide (b.1.id ≤ a.1.id)) = true := by
    simpa using Int64.le_total a.1.id b.1.id
  have hsorted : (execSelectOf kind ids t).Pairwise fun a b => decide (a.1.id ≤ b.1.id) = true :=
    List.pairwise_mergeSort htrans htotal _
  have hdistinct : (execSelectOf kind ids t).Pairwise fun a b => a.1 ≠ b.1 := by
    have hfilter := (List.pairwise_map.mp h).filter
      fun r => decide (r.1.kind = kind) && ids.contains r.1.id
    exact (List.mergeSort_perm _ _).symm.pairwise hfilter Ne.symm
  refine (hsorted.and hdistinct).imp_of_mem fun {a b} ha hb hab => ?_
  have hkind : a.1.kind = b.1.kind :=
    (mem_execSelectOf.mp ha).2.1.trans (mem_execSelectOf.mp hb).2.1.symm
  refine Int64.lt_of_le_of_ne (of_decide_eq_true hab.1) fun hid => hab.2 ?_
  obtain ⟨⟨_, _⟩, _⟩ := a
  obtain ⟨⟨_, _⟩, _⟩ := b
  exact congrArg₂ Item.mk hkind hid

end Statement

/-! ### Searches -/

namespace Server

/-- A search for the row of one item. -/
def find? (v : Server) (i : Item) : Except StoreFailure (Option (Stamped Counts)) :=
  (v.serve (Script.send (.selectCounts i))).1

/-- A search for the rows of some items of a kind. -/
def findAll (v : Server) (kind : String) (ids : List Int64) :
    Except StoreFailure (List (Item × Stamped Counts)) :=
  (v.serve (Script.countsOf kind ids)).1

/-- Whether rows are what searches for single rows find, for some ids of a kind: the row of each
item once, in ascending order. -/
structure Lists (v : Server) (kind : String) (ids : List Int64)
    (rows : List (Item × Stamped Counts)) : Prop where
  ascending : rows.Pairwise fun a b => a.1.id < b.1.id
  mem_iff : ∀ i row, (i, row) ∈ rows ↔ i.kind = kind ∧ i.id ∈ ids ∧ v.find? i = .ok (some row)

/-- Whether a table shows what calls for single items show, for some ids of a kind: those that have
a row, for nobody in particular. -/
structure Shows (v : Server) (kind : String) (ids : List Int64)
    (shown : Table Int64 Summary) : Prop where
  nodup : (shown.map (·.1)).Nodup
  isSome_iff : ∀ id, (shown.get? id).isSome ↔
    id ∈ ids ∧ ∃ row, v.find? ⟨kind, id⟩ = .ok (some row)
  plain : ∀ id s, shown.get? id = some s →
    s.item = ⟨kind, id⟩ ∧ s.liked = false ∧ s.collected = false
  single : ∀ id ∈ ids, ∀ s : Scene Server, s.2.store = v → Uncached s → ∃ r s',
    (site.call (Service.publicSummary ⟨kind, id⟩)).play s = (.ok r, s') ∧
      shown.get? id = r.toOption

variable {v : Server} {t : Tables} {kind : String} {ids : List Int64}
  {rows : List (Item × Stamped Counts)}

/-! ### Calm servers -/

theorem Calm.find?_eq (h : v.Calm) (ht : v.tables = some t) (i : Item) :
    v.find? i = if storable i.kind then .ok (t.counts.get? i) else .error unstorable :=
  h.serve_send ht (s := .selectCounts i) rfl rfl rfl

/-- Nothing is sent for no ids. -/
theorem findAll_nil (v : Server) (kind : String) : v.findAll kind [] = .ok [] := rfl

theorem Calm.findAll_eq (h : v.Calm) (ht : v.tables = some t) (hids : ids ≠ []) :
    v.findAll kind ids =
      if storable kind then .ok (Statement.execSelectOf kind ids t) else .error unstorable := by
  rw [findAll, Script.countsOf, if_neg (by simpa using hids)]
  exact h.serve_send ht (s := .selectCountsOf kind ids) rfl rfl rfl

theorem Calm.lists (h : v.Calm) (ht : v.tables = some t) (hunique : (t.counts.map (·.1)).Nodup)
    (hkind : storable kind) : v.Lists kind ids (Statement.execSelectOf kind ids t) where
  ascending := Statement.pairwise_execSelectOf hunique
  mem_iff i row := by
    rw [Statement.mem_execSelectOf, ← Table.get?_eq_some_iff hunique, h.find?_eq ht]
    constructor
    · rintro ⟨hget, rfl, hid⟩
      exact ⟨rfl, hid, by rw [if_pos hkind, hget]⟩
    · rintro ⟨rfl, hid, hfind⟩
      rw [if_pos hkind] at hfind
      exact ⟨Except.ok.inj hfind, rfl, hid⟩

theorem lists_nil (v : Server) (kind : String) : v.Lists kind [] [] := ⟨.nil, by simp⟩

/-- **Many rows are found like single ones.** -/
theorem Calm.exists_lists (h : v.Calm) (ht : v.tables = some t)
    (hunique : (t.counts.map (·.1)).Nodup) (hkind : storable kind ∨ ids = []) :
    ∃ rows, v.findAll kind ids = .ok rows ∧ v.Lists kind ids rows := by
  by_cases hids : ids = []
  · subst hids
    exact ⟨[], v.findAll_nil kind, v.lists_nil kind⟩
  · have hkind := hkind.resolve_right hids
    exact ⟨_, by rw [h.findAll_eq ht hids, if_pos hkind], h.lists ht hunique hkind⟩

/-! ### What is shown -/

theorem answer_counts (v : Server) (i : Item) :
    (site.answer (.counts i) v).1 = Option.map (·.value) <$> v.find? i := by
  change (v.serve (Script.ofRequest (.counts i))).1 = _
  rw [Script.ofRequest, bind_pure_comp, serve_map]
  rfl

theorem answer_countsOf (v : Server) (kind : String) (ids : List Int64) :
    (site.answer (.countsOf kind ids) v).1 =
      List.map (fun r => (r.1, r.2.value)) <$> v.findAll kind ids := by
  change (v.serve (Script.ofRequest (.countsOf kind ids))).1 = _
  rw [Script.ofRequest, bind_pure_comp, serve_map]
  rfl

/-- A call for several items shows the rows that are found. -/
theorem play_byId {C : Type} [CacheKind C] {s : Scene Server C} (h : s.2.storeTroubles = [])
    (kind : String) (ids : List Int64) : ∃ s',
      (site.call (Service.byId kind ids)).play s = (.ok (Call.taken Service.gathered
        (List.map (fun r => (r.1, r.2.value)) <$> s.2.store.findAll kind ids)), s') := by
  rw [← answer_countsOf]
  exact site.play_byId kind ids h

namespace Lists

/-- No two rows have the same id. -/
theorem nodup_ids (h : v.Lists kind ids rows) :
    ((rows.map fun r => (r.1, r.2.value)).map fun r => r.1.id).Nodup := by
  rw [List.map_map, List.nodup_iff_pairwise_ne, List.pairwise_map]
  exact h.ascending.imp fun hlt => Int64.ne_of_lt hlt

/-- Rows of one kind are told apart by their ids, so none takes the place of another. -/
theorem get?_gathered (h : v.Lists kind ids rows) {id : Int64} {s : Summary} :
    (Service.gathered (rows.map fun r => (r.1, r.2.value))).get? id = some s ↔
      id ∈ ids ∧
        ∃ row, v.find? ⟨kind, id⟩ = .ok (some row) ∧ s = .ofCounts ⟨kind, id⟩ row.value := by
  rw [Service.get?_gathered h.nodup_ids]
  constructor
  · rintro ⟨i, n, hmem, rfl, rfl⟩
    obtain ⟨⟨i, row⟩, hrow, heq⟩ := List.mem_map.mp hmem
    cases heq
    obtain ⟨rfl, hid, hfind⟩ := (h.mem_iff i row).mp hrow
    exact ⟨hid, row, hfind, rfl⟩
  · rintro ⟨hid, row, hfind, rfl⟩
    have hrow := (h.mem_iff ⟨kind, id⟩ row).mpr ⟨rfl, hid, hfind⟩
    exact ⟨_, _, List.mem_map_of_mem hrow, rfl, rfl⟩

/-- What a call for a single item shows is what is shown of the rows. -/
theorem get?_gathered_eq (h : v.Lists kind ids rows) {id : Int64} (hid : id ∈ ids) :
    (Service.gathered (rows.map fun r => (r.1, r.2.value))).get? id =
      (Service.shown ⟨kind, id⟩ (site.answer (.counts ⟨kind, id⟩) v).1).toOption := by
  refine Option.ext fun s => h.get?_gathered.trans ?_
  rw [answer_counts]
  rcases v.find? ⟨kind, id⟩ with why | _ | row
  · simp [Service.shown, Except.toOption]
  · simp [Service.shown, Except.toOption]
  · simp [Service.shown, Except.toOption, hid, eq_comm]

theorem shows (h : v.Lists kind ids rows) :
    v.Shows kind ids (Service.gathered (rows.map fun r => (r.1, r.2.value))) where
  nodup := Service.nodup_gathered h.nodup_ids
  isSome_iff id := by
    rw [Option.isSome_iff_exists]
    simp only [h.get?_gathered]
    exact ⟨fun ⟨_, hid, row, hfind, _⟩ => ⟨hid, row, hfind⟩,
      fun ⟨hid, row, hfind⟩ => ⟨_, hid, row, hfind, rfl⟩⟩
  plain id s hs := by
    obtain ⟨-, row, -, rfl⟩ := h.get?_gathered.mp hs
    exact ⟨rfl, rfl, rfl⟩
  single id hid s hv hs := by
    subst hv
    obtain ⟨s', hplay⟩ := site.play_publicSummary ⟨kind, id⟩ hs
    exact ⟨_, s', hplay, h.get?_gathered_eq hid⟩

end Lists

end Server

/-! ### One by one -/

/-- **To read in bulk is to read one by one.** -/
theorem bulk_reads_agree {v : Server} {t : Tables} (hcalm : v.Calm) (ht : v.tables = some t)
    (hunique : (t.counts.map (·.1)).Nodup) (kind : String) (ids : List Int64) :
    (storable kind ∨ ids = [] →
      (∃ rows, v.findAll kind ids = .ok rows ∧ v.Lists kind ids rows) ∧
      ∀ {C : Type} [CacheKind C] (s : Scene Server C), s.2.store = v → s.2.storeTroubles = [] →
        ∃ shown s', (Server.site.call (Service.byId kind ids)).play s = (.ok (.ok shown), s') ∧
          v.Shows kind ids shown) ∧
    (¬ storable kind → ids ≠ [] →
      v.findAll kind ids = .error Server.unstorable ∧
      (∀ id, v.find? ⟨kind, id⟩ = .error Server.unstorable) ∧
      ∀ {C : Type} [CacheKind C] (s : Scene Server C), s.2.store = v → s.2.storeTroubles = [] →
        ∃ s', (Server.site.call (Service.byId kind ids)).play s =
          (.ok (.error (.store Server.unstorable)), s')) ∧
    ∃ next, (Service.byId kind ids).run = .ask (.store (.countsOf kind ids)) next ∧
      ∀ x, ∃ r, next x = .done r := by
  refine ⟨fun hkind => ?_, fun hkind hids => ?_, ⟨_, Service.run_byId kind ids, fun x => ⟨_, rfl⟩⟩⟩
  · obtain ⟨rows, hfound, hlists⟩ := hcalm.exists_lists ht hunique hkind
    refine ⟨⟨rows, hfound, hlists⟩, fun s hv hs => ?_⟩
    obtain ⟨s', hplay⟩ := Server.play_byId hs kind ids
    rw [hv, hfound] at hplay
    exact ⟨_, s', hplay, hlists.shows⟩
  · have hfound : v.findAll kind ids = .error Server.unstorable := by
      rw [hcalm.findAll_eq ht hids, if_neg hkind]
    refine ⟨hfound, fun id => ?_, fun s hv hs => ?_⟩
    · rw [hcalm.find?_eq ht, if_neg hkind]
    · obtain ⟨s', hplay⟩ := Server.play_byId hs kind ids
      rw [hv, hfound] at hplay
      exact ⟨s', hplay⟩

/-- Two articles and a video: of three ids of articles the two that have a row are found and shown,
but not the one that only a video has. -/
theorem bulk_reads_agree_articles :
    let t : Tables := { counts := [(⟨"article", 2⟩, .new ⟨5, 1, 0⟩ 0), (⟨"video", 7⟩, .new .zero 0),
      (⟨"article", 1⟩, .new .zero 0)] }
    let v : Server := { tables := some t }
    let s : Scene Server := ({ limit := 1 }, { store := v, cache := none })
    (∃ rows, v.findAll "article" [2, 7, 1, 2] = .ok rows ∧
      (⟨"article", 2⟩, .new ⟨5, 1, 0⟩ 0) ∈ rows ∧ ∀ row, (⟨"video", 7⟩, row) ∉ rows) ∧
    ∃ shown s', (Server.site.call (Service.byId "article" [2, 7, 1, 2])).play s =
        (.ok (.ok shown), s') ∧
      (shown.get? 1).isSome ∧ ¬ (shown.get? 7).isSome ∧
      ∃ r s₁, (Server.site.call (Service.publicSummary ⟨"article", 2⟩)).play s = (.ok r, s₁) ∧
        shown.get? 2 = r.toOption := by
  intro t v s
  have hcalm : v.Calm := ⟨⟨rfl, rfl⟩, rfl⟩
  obtain ⟨hagree, -⟩ := bulk_reads_agree hcalm rfl (by decide) "article" [2, 7, 1, 2]
  obtain ⟨⟨rows, hfound, hlists⟩, hshown⟩ := hagree (.inl (by decide))
  obtain ⟨shown, s', hplay, hshows⟩ := hshown s rfl rfl
  have hfind (id : Int64) : v.find? ⟨"article", id⟩ = .ok (t.counts.get? ⟨"article", id⟩) := by
    have hkind : storable "article" := by decide
    rw [hcalm.find?_eq rfl, if_pos hkind]
  have hsingle := hshows.single 2 (by decide) s rfl ⟨nofun, rfl, rfl⟩
  refine ⟨⟨rows, hfound, ?_, fun row hrow => ?_⟩, shown, s', hplay, ?_, ?_, hsingle⟩
  · exact (hlists.mem_iff _ _).mpr ⟨rfl, by decide, hfind 2⟩
  · exact absurd ((hlists.mem_iff _ _).mp hrow).1 (by decide)
  · exact (hshows.isSome_iff 1).mpr ⟨by decide, _, hfind 1⟩
  · rintro hsome
    obtain ⟨-, row, hrow⟩ := (hshows.isSome_iff 7).mp hsome
    rw [hfind] at hrow
    cases hrow

/-- A kind that no table can hold is not found to have no items: the search for them fails. -/
theorem bulk_reads_refused :
    let v : Server := {}
    let s : Scene Server := ({ limit := 1 }, { store := v, cache := none })
    (v.Calm ∧ v.tables = some {}) ∧ ¬ (∃ rows, v.findAll "\x00" [1] = .ok rows) ∧
      ¬ ∃ shown s',
        (Server.site.call (Service.byId "\x00" [1])).play s = (.ok (.ok shown), s') := by
  intro v s
  have hcalm : v.Calm := ⟨⟨rfl, rfl⟩, rfl⟩
  have hfound : s.2.store.findAll "\x00" [1] = .error Server.unstorable := by
    rw [hcalm.findAll_eq rfl (by decide), if_neg (by decide)]
  refine ⟨⟨hcalm, rfl⟩, fun ⟨rows, hrows⟩ => ?_, fun ⟨shown, s', hshown⟩ => ?_⟩
  · cases hfound.symm.trans hrows
  · obtain ⟨s'', hplay⟩ := Server.play_byId (s := s) rfl "\x00" [1]
    rw [hfound] at hplay
    cases hplay.symm.trans hshown

end Popularity
