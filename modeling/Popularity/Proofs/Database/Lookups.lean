import Popularity.Proofs.Database.Calm
import Popularity.Proofs.Engine.Marks

/-!
# Lookups in the database

A lookup is a single statement that leaves the tables as they are. A server that is left alone
answers it from the tables, unless it is asked for a text that no table can hold. Whatever else
keeps a server from answering becomes a failure of the store, and only the failure to find a row
would be taken for an answer.

## Main definitions

* `storable` — a kind of items that tables can hold

## Main results

* `Server.Calm.serve_send`
* `Server.Calm.serve_marked`
* `marks_told_apart`
-/

namespace Popularity

variable {α β : Type}

/-! ### Failures -/

theorem AccessFailure.toStore_eq_notFound_iff {why : AccessFailure} :
    why.toStore = .notFound ↔ why = .noRow := by
  unfold toStore
  split
  · simp
  · simp
  next => split_ifs <;> simp
  next => simp_all

/-- **Any failure but that to find a row** is told as a failure. -/
theorem Service.found_toStore {why : AccessFailure} (h : why ≠ .noRow) :
    found (.error why.toStore) = .error (.store why.toStore) :=
  found_eq_error_iff.mpr ⟨_, fun heq => h (AccessFailure.toStore_eq_notFound_iff.mp heq), rfl, rfl⟩

/-! ### Calm servers -/

/-- Whether tables can hold a kind of items. -/
def storable (kind : String) : Bool := !kind.toList.contains '\x00'

theorem Statement.exec_of_kind? {s : Statement} {kind : String} (h : s.kind? = some kind)
    (now : Nat) (t : Tables) :
    s.exec now t = if storable kind then s.effect now t else .error zeroCharacter := by
  unfold exec storable
  rw [h, Option.any_some]
  cases kind.toList.contains '\x00' <;> rfl

namespace Server

variable {v : Server} {t : Tables}

/-- The failure of a statement that speaks of a text that no table can hold. -/
def unstorable : StoreFailure := (AccessFailure.refused Statement.zeroCharacter).toStore

/-- What a server makes of a failure. -/
theorem serve_of_run_eq_error {script : Script α} {why : AccessFailure}
    (h : (v.run script).1 = .error why) : (v.serve script).1 = .error why.toStore := by
  unfold serve
  rcases hrun : v.run script with ⟨why' | result, v'⟩
  · rw [hrun] at h
    cases h
    rfl
  · rw [hrun] at h
    cases h

/-- What is made of an answer is made of it after the server is done. -/
theorem serve_map (f : α → β) (script : Script α) (v : Server) :
    (v.serve (f <$> script)).1 = f <$> (v.serve script).1 := by
  rw [serve_eq, serve_eq, ← bind_pure_comp, ExceptT.run_bind, converse_bind]
  rcases Server.converse script.run { v with clock := v.clock + 1 } with ⟨_ | _ | _, v'⟩ <;> rfl

/-- **A lookup on a calm server** is answered from the tables. -/
theorem Calm.serve_send (h : v.Calm) (ht : v.tables = some t) {s : Statement} {kind : String}
    {a : s.Answer} (hs : s.needsTables = true) (hkind : s.kind? = some kind)
    (ha : s.effect (v.clock + 1) t = .ok (a, t)) :
    (v.serve (Script.send s)).1 = if storable kind then .ok a else .error unstorable := by
  have hready : ({ v with clock := v.clock + 1 } : Server).Ready := ⟨h.pool, h.faults⟩
  have hcurrent : ({ v with clock := v.clock + 1 } : Server).current = some t := by
    rw [current, h.draft]
    exact ht
  rw [serve_eq, hready.converse_send hs hcurrent, Script.run_send, Script.evaluate,
    Statement.exec_of_kind? hkind, ha]
  cases storable kind <;> rfl

theorem Calm.serve_marked (h : v.Calm) (ht : v.tables = some t) (m : Mark) (i : Item)
    (user : Int64) : (v.serve (.ofRequest (.marked m i user))).1 =
      if storable i.kind then .ok (t.active? m (i, user)).isSome else .error unstorable := by
  have hsend := h.serve_send ht (s := .selectMark m i user) rfl rfl rfl
  rw [Script.ofRequest, bind_pure_comp, serve_map, hsend]
  cases storable i.kind <;> rfl

/-- A call for a mark says what was found by the server. -/
theorem play_marked {C : Type} [CacheKind C] {s : Scene Server C} (h : s.2.storeTroubles = [])
    (m : Mark) (i : Item) (user : Int64) : ∃ s',
      (site.call (Service.marked m i user)).play s =
        (.ok (Service.found (s.2.store.serve (.ofRequest (.marked m i user))).1), s') := by
  obtain ⟨s', hplay, -⟩ := site.play_marked m i user s
  rw [h] at hplay
  exact ⟨s', hplay⟩

/-- What is found by a calm server. -/
theorem Calm.found_marked (h : v.Calm) (ht : v.tables = some t) (m : Mark) (i : Item)
    (user : Int64) : Service.found (v.serve (.ofRequest (.marked m i user))).1 =
      if storable i.kind then .ok (t.active? m (i, user)).isSome
      else .error (.store unstorable) := by
  rw [h.serve_marked ht]
  cases storable i.kind <;> rfl

end Server

theorem Tables.isSome_active?_iff {t : Tables} {m : Mark} {key : Item × Int64} :
    (t.active? m key).isSome = true ↔
      ∃ row, (t.marks m).get? key = some row ∧ row.value.standing = .active := by
  simp [active?, Option.isSome_filter, Option.any_eq_true]

/-! ### Failures are told -/

/-- **To fail to find a mark is not to find none**, and marks fail one by one. -/
theorem marks_told_apart :
    (∀ {S C : Type} [CacheKind C] (site : Site S) (m : Mark) (i : Item) (user : Int64)
      (s : Scene S C),
      let looked := (site.look m i user (s.2.store, s.2.storeTroubles)).1
      ∃ r s', (site.call (Service.marked m i user)).play s = (.ok r, s') ∧
        Service.TellsApart looked.1 r ∧ s'.1.now = s.1.now + looked.2) ∧
    (∀ {S C : Type} [CacheKind C] (site : Site S) (i : Item) (user : Int64) (s : Scene S C),
      (Service.counts i (Site.summarySpan i user)).run.Meets (fun q => q.isForMark = false)
        (fun _ _ => True) (fun _ => True) ∧
      match (site.call (Service.counts i (Site.summarySpan i user))).play s with
      | (.ok (.ok n), s₁) =>
        let liked := site.look .like i user (s₁.2.store, s₁.2.storeTroubles)
        let collected := site.look .collection i user liked.2
        ∃ s', (site.call (Service.summary i user)).play s = (.ok (.ok ⟨i, n,
            decide (liked.1.1 = .ok true), decide (collected.1.1 = .ok true)⟩), s') ∧
          s'.1.now = s₁.1.now + max liked.1.2 collected.1.2
      | (.ok (.error why), s₁) =>
        (site.call (Service.summary i user)).play s = (.ok (.error why), s₁)
      | (.error crash, s₁) =>
        (site.call (Service.summary i user)).play s = (.error crash, s₁)) ∧
    (∀ {S : Type} (site : Registry S) {m m' : Mark}, m ≠ m' → ∀ (i : Item) (user : Int64)
      (l : S × List (String × StoreTrouble)),
      (site.look m' i user (site.look m i user l).2).1 = (site.look m' i user l).1) ∧
    (∀ why : AccessFailure, why ≠ .noRow →
      Service.found (.error why.toStore) = .error (.store why.toStore)) ∧
    ∀ {C : Type} [CacheKind C] (s : Scene Server C) (m : Mark) (i : Item) (user : Int64),
      s.2.storeTroubles = [] → ∃ r s',
        (Server.site.call (Service.marked m i user)).play s = (.ok r, s') ∧
        (∀ why, (s.2.store.run (.ofRequest (.marked m i user))).1 = .error why → why ≠ .noRow →
          r = .error (.store why.toStore)) ∧
        ∀ t, s.2.store.Calm → s.2.store.tables = some t →
          (r = .ok true ↔ storable i.kind ∧
            ∃ row, (t.marks m).get? (i, user) = some row ∧ row.value.standing = .active) ∧
          (r = .ok false ↔ storable i.kind ∧
            ¬ ∃ row, (t.marks m).get? (i, user) = some row ∧ row.value.standing = .active) := by
  refine ⟨?_, ?_, fun site _ _ h i user l => site.look_look h i user l,
    fun why h => Service.found_toStore h, ?_⟩
  · intro S C _ site m i user s looked
    obtain ⟨s', hplay, hnow⟩ := site.play_marked m i user s
    exact ⟨_, s', hplay, Service.tellsApart_found _, hnow⟩
  · intro S C _ site i user s
    exact ⟨Site.meets_counts i _, site.play_summary i user s⟩
  · intro C _ s m i user htroubles
    obtain ⟨s', hplay⟩ := Server.play_marked htroubles m i user
    refine ⟨_, s', hplay, fun why hwhy hne => ?_, fun t hcalm ht => ?_⟩
    · rw [Server.serve_of_run_eq_error hwhy, Service.found_toStore hne]
    · rw [hcalm.found_marked ht, ← Tables.isSome_active?_iff]
      cases storable i.kind <;> simp

/-- A like that was taken back, one in force, and a server that could not be reached. -/
theorem marks_told_apart_likes :
    let i : Item := ⟨"article", 1⟩
    let v : Server := { tables := some {
      likes := [((i, 1), .new ⟨0, .inactive⟩ 0), ((i, 2), .new ⟨0, .active⟩ 0)] } }
    let s : Scene Server := ({ limit := 1 }, { store := v, cache := none })
    (∃ s', (Server.site.call (Service.marked .like i 1)).play s = (.ok (.ok false), s')) ∧
    (∃ s', (Server.site.call (Service.marked .like i 2)).play s = (.ok (.ok true), s')) ∧
    Service.found (.error AccessFailure.poolTimedOut.toStore) = .error (.store .timeout) := by
  intro i v s
  have hcalm : s.2.store.Calm := ⟨⟨rfl, rfl⟩, rfl⟩
  obtain ⟨r₁, s₁, hplay₁, -, hlike₁⟩ := marks_told_apart.2.2.2.2 s .like i 1 rfl
  obtain ⟨r₂, s₂, hplay₂, -, hlike₂⟩ := marks_told_apart.2.2.2.2 s .like i 2 rfl
  have hnone : r₁ = .ok false := by
    refine (hlike₁ _ hcalm rfl).2.mpr ⟨by decide, ?_⟩
    rw [← Tables.isSome_active?_iff]
    decide
  have hsome : r₂ = .ok true := (hlike₂ _ hcalm rfl).1.mpr ⟨by decide, _, rfl, rfl⟩
  exact ⟨⟨s₁, hnone ▸ hplay₁⟩, ⟨s₂, hsome ▸ hplay₂⟩, marks_told_apart.2.2.2.1 .poolTimedOut nofun⟩

end Popularity
