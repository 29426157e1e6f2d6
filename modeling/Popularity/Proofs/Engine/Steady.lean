import Popularity.Proofs.Background
import Popularity.Proofs.Engine.Play

/-!
# What the cache leaves alone

No operation of a cache, of whatever kind, and no job of the crew touches the store, the troubles
laid in the way of its requests, or the limit of jobs. So as far as the store is concerned nothing
has happened when they are through, but time may have passed: not at all for a job that is left, and
no more than the limit for an operation that is awaited. A cache that is *calm* does not crash
either.

## Main definitions

* `Steady` — a scene before and after something that does not matter to the store
* `CalmCache`

## Main results

* `steady_settle`, `steady_sleep`, `steady_drain`
* `Act.steady_bounded`, `Act.bounded_now`, `Act.bounded_ok`
-/

namespace Popularity

variable {S C : Type}

/-- A kind of cache whose operations may fail, but do not crash. -/
class CalmCache (C : Type) extends CacheKind C where
  calm : ∀ now o c, ∃ a c' rs, work now o c = ((.ok a, c'), rs)

/-! ### Worlds -/

namespace World

/-- Two worlds with the same store, and the same troubles in its way. -/
structure SameStore (w w' : World S C) : Prop where
  store_eq : w'.store = w.store
  storeTroubles_eq : w'.storeTroubles = w.storeTroubles

variable {w w' w'' : World S C} {now : Nat} {o : Cache.Op} {u : Upkeep} {r : Underway}

namespace SameStore

theorem refl (w : World S C) : SameStore w w := ⟨rfl, rfl⟩

theorem trans (h : SameStore w w') (h' : SameStore w' w'') : SameStore w w'' :=
  ⟨h'.store_eq.trans h.store_eq, h'.storeTroubles_eq.trans h.storeTroubles_eq⟩

end SameStore

variable [CacheKind C]

theorem sameStore_takeCacheTrouble : SameStore w (w.takeCacheTrouble now o).2 := by
  unfold takeCacheTrouble
  split <;> exact ⟨rfl, rfl⟩

theorem sameStore_work : SameStore w (w.work now o).2 := ⟨rfl, rfl⟩

theorem sameStore_startUpkeep : SameStore w (w.startUpkeep now u).2 := by
  have hnote : SameStore w (w.note (.cache u.op)) := ⟨rfl, rfl⟩
  have h : SameStore w ((w.note (.cache u.op)).takeCacheTrouble now u.op).2 :=
    hnote.trans sameStore_takeCacheTrouble
  unfold startUpkeep
  generalize (w.note (.cache u.op)).takeCacheTrouble now u.op = x at h ⊢
  obtain ⟨trouble, w'⟩ := x
  rcases trouble with _ | time | why | _
  · exact h
  · exact h
  · exact h
  · exact h

theorem sameStore_finishUpkeep : SameStore w (w.finishUpkeep now r).2 := by
  unfold finishUpkeep
  split
  next => exact ⟨rfl, rfl⟩
  next =>
    have h : SameStore w (w.work now r.job.op).2 := sameStore_work
    split <;> rename_i heq <;> rw [heq] at h <;> exact ⟨h.1, h.2⟩

/-- No job touches the store. -/
theorem keeps_sameStore (w : World S C) :
    (World.upkeep (S := S) (C := C)).Keeps (SameStore w) where
  start _ _ _ hw := hw.trans sameStore_startUpkeep
  finish _ _ _ hw := hw.trans sameStore_finishUpkeep
  tell _ _ hw := ⟨hw.1, hw.2⟩

end World

/-! ### Scenes -/

/-- Two scenes that differ in nothing that matters to the store. -/
structure Steady (s s' : Scene S C) : Prop extends World.SameStore s.2 s'.2 where
  limit_eq : s'.1.limit = s.1.limit

namespace Steady

variable {s s' s'' : Scene S C}

theorem trans (h : Steady s s') (h' : Steady s' s'') : Steady s s'' :=
  ⟨h.toSameStore.trans h'.toSameStore, h'.limit_eq.trans h.limit_eq⟩

end Steady

section Crew

variable [CacheKind C] {s : Scene S C}

theorem steady_settle : Steady s (World.upkeep.settle s) :=
  ⟨(World.keeps_sameStore s.2).settle (.refl _), Craft.settle_limit⟩

theorem steady_sleep {time : Nat} : Steady s (World.upkeep.sleep time s) :=
  ⟨(World.keeps_sameStore s.2).sleep (.refl _), Craft.sleep_limit time⟩

theorem steady_drain : Steady s (World.upkeep.drain s) :=
  have hkeeps := World.keeps_sameStore s.2
  ⟨hkeeps.reachAll (hkeeps.settle (.refl _)), (Craft.reachAll_limit _).trans Craft.settle_limit⟩

end Crew

/-! ### Operations of the cache -/

namespace Act

variable [CacheKind C] {s : Scene S C} {o : Cache.Op}

theorem play_sleep (time : Nat) :
    (Action.sleep time : Act S C Unit).play s = (.ok (), World.upkeep.sleep time s) := rfl

theorem play_settle : (Action.settle : Act S C Unit).play s = (.ok (), World.upkeep.settle s) := rfl

theorem play_thenIdle {α : Type} {act : Act S C α} {a : α} {s' : Scene S C}
    (h : act.play s = (.ok a, s')) :
    (Action.thenIdle act).play s = (.ok a, World.upkeep.drain s') := by
  rw [Action.thenIdle, play_bind, play_tryCatch, play_map, h]
  rfl

theorem play_meet (o : Cache.Op) : (Action.meet o : Act S C _).play s =
    (.ok ((s.2.note (.cache o)).takeCacheTrouble s.1.now o).1, s.1,
      ((s.2.note (.cache o)).takeCacheTrouble s.1.now o).2) := rfl

theorem play_work (o : Cache.Op) : (Action.work o : Act S C _).play s =
    ((s.2.work s.1.now o).1, s.1, (s.2.work s.1.now o).2) := by
  rw [Action.work, play_bind, play_get]
  dsimp only
  rw [play_bind, play_set]
  cases (s.2.work s.1.now o).1 <;> rfl

/-- The scene in which an operation has met its trouble. -/
def met (o : Cache.Op) (s : Scene S C) : Scene S C :=
  (s.1, ((s.2.note (.cache o)).takeCacheTrouble s.1.now o).2)

theorem steady_met (o : Cache.Op) : Steady s (met o s) where
  toSameStore :=
    have hnote : World.SameStore s.2 (s.2.note (.cache o)) := ⟨rfl, rfl⟩
    hnote.trans World.sameStore_takeCacheTrouble
  limit_eq := rfl

/-- What an operation comes to that is awaited: it is done in time, or refused, or late. -/
theorem bounded_cases (o : Cache.Op) (s : Scene S C) :
    (∃ time ≤ s.1.limit, (Action.bounded o).play s =
      (.ofResult <$> Action.work o : Act S C _).play (World.upkeep.sleep time (met o s))) ∨
    (∃ why, (Action.bounded o).play s = (.ok (.failed why), met o s)) ∨
    (Action.bounded o).play s = (.ok .late, World.upkeep.sleep s.1.limit (met o s)) := by
  generalize h : (Action.bounded o).play s = x
  rw [Action.bounded, play_bind, play_get] at h
  dsimp only at h
  rw [play_bind, play_meet] at h
  dsimp only at h
  generalize ((s.2.note (.cache o)).takeCacheTrouble s.1.now o).1 = trouble at h
  rcases trouble with _ | time | why | _
  · exact .inl ⟨0, Nat.zero_le _, h.symm⟩
  · dsimp only at h
    split at h
    next hle => exact .inl ⟨time, hle, h.symm⟩
    next => exact .inr (.inr h.symm)
  · exact .inr (.inl ⟨why, h.symm⟩)
  · exact .inr (.inr h.symm)

theorem steady_work (o : Cache.Op) : Steady s ((Action.work o : Act S C _).play s).2 := by
  rw [play_work]
  exact ⟨World.sameStore_work, rfl⟩

theorem work_crew (o : Cache.Op) : ((Action.work o : Act S C _).play s).2.1 = s.1 := by
  rw [play_work]

/-- An operation that is awaited leaves the store alone. -/
theorem steady_bounded (o : Cache.Op) : Steady s ((Action.bounded o : Act S C _).play s).2 := by
  have hmet := steady_met (s := s) o
  rcases bounded_cases o s with ⟨time, hle, h⟩ | ⟨why, h⟩ | h <;> rw [h]
  · rw [play_map]
    exact (hmet.trans steady_sleep).trans (steady_work o)
  · exact hmet
  · exact hmet.trans steady_sleep

/-- It takes no longer than the limit. -/
theorem bounded_now (o : Cache.Op) :
    ((Action.bounded o : Act S C _).play s).2.1.now ≤ s.1.now + s.1.limit := by
  rcases bounded_cases o s with ⟨time, hle, h⟩ | ⟨why, h⟩ | h <;> rw [h]
  · rw [play_map, work_crew, Craft.sleep_now]
    exact Nat.add_le_add_left hle _
  · exact Nat.le_add_right ..
  · exact Nat.le_of_eq (Craft.sleep_now _)

/-- What an operation comes to whose trouble is waited for, however long. -/
theorem cache_cases (o : Cache.Op) (s : Scene S C) :
    (∃ time, (Action.cache o).play s =
      (Action.work o : Act S C _).play (World.upkeep.sleep time (met o s))) ∨
    ∃ why, (Action.cache o).play s = (.ok (.error why), met o s) := by
  generalize h : (Action.cache o).play s = x
  rw [Action.cache, play_bind, play_meet] at h
  dsimp only at h
  generalize ((s.2.note (.cache o)).takeCacheTrouble s.1.now o).1 = trouble at h
  rcases trouble with _ | time | why | _
  · exact .inl ⟨0, h.symm⟩
  · exact .inl ⟨time, h.symm⟩
  · exact .inr ⟨why, h.symm⟩
  · exact .inr ⟨.timeout, h.symm⟩

theorem steady_cache (o : Cache.Op) : Steady s ((Action.cache o : Act S C _).play s).2 := by
  have hmet := steady_met (s := s) o
  rcases cache_cases o s with ⟨time, h⟩ | ⟨why, h⟩ <;> rw [h]
  · exact (hmet.trans steady_sleep).trans (steady_work o)
  · exact hmet

end Act

/-! ### Calm caches -/

namespace Act

variable {S C : Type} [CalmCache C] {s : Scene S C}

theorem work_ok (o : Cache.Op) : ∃ a, ((Action.work o : Act S C _).play s).1 = .ok a := by
  obtain ⟨a, c, rs, h⟩ := CalmCache.calm s.1.now o s.2.cache
  exact ⟨a, by rw [play_work, World.work, h]⟩

theorem bounded_ok (o : Cache.Op) : ∃ a, ((Action.bounded o : Act S C _).play s).1 = .ok a := by
  rcases bounded_cases o s with ⟨time, -, h⟩ | ⟨why, h⟩ | h <;> rw [h]
  · obtain ⟨a, ha⟩ := work_ok (s := World.upkeep.sleep time (met o s)) o
    exact ⟨_, by rw [play_map, ha]; rfl⟩
  · exact ⟨_, rfl⟩
  · exact ⟨_, rfl⟩

end Act

end Popularity
