import Popularity.Engine

/-!
# Playing an act

To play an act in a scene gives its result, or its crash, and the scene that it leaves behind. An
act is put together from smaller ones, and so is what it comes to. Nothing here knows a store or a
cache.

## Main definitions

* `Act.play`
* `Act.Keeps` — what an act cannot break, even if it crashes

## Main results

* `Act.play_bind`, `Act.Keeps.bind` — one act after another
-/

namespace Popularity.Act

variable {S C α β : Type} {s : Scene S C}

/-- What an act comes to in a scene. -/
def play (act : Act S C α) (s : Scene S C) : Except Crash α × Scene S C := (act.run s).run

/-- One act after another: a crash ends both. -/
theorem play_bind (act : Act S C α) (f : α → Act S C β) :
    (act >>= f).play s = match act.play s with
      | (.ok a, s) => (f a).play s
      | (.error crash, s) => (.error crash, s) := by
  rw [play, ExceptT.run_bind]
  generalize h : act.play s = x
  have hrun : act.run s = x := h
  simp only [bind, StateT.bind, Id.run, hrun]
  rcases x with ⟨_ | _, _⟩ <;> rfl

theorem play_bind_ok {act : Act S C α} {f : α → Act S C β} {a : α} {s' : Scene S C}
    (h : act.play s = (.ok a, s')) : (act >>= f).play s = (f a).play s' := by
  rw [play_bind, h]

@[simp] theorem play_map (act : Act S C α) (f : α → β) :
    (f <$> act).play s = (f <$> (act.play s).1, (act.play s).2) := by
  rw [← bind_pure_comp, play_bind]
  rcases act.play s with ⟨_ | _, _⟩ <;> rfl

/-- A crash that is caught. -/
theorem play_tryCatch (act : Act S C α) (handle : Crash → Act S C α) :
    (tryCatch act handle).play s = match act.play s with
      | (.ok a, s) => (.ok a, s)
      | (.error crash, s) => (handle crash).play s := by
  rw [play, ExceptT.run_tryCatch]
  generalize h : act.play s = x
  have hrun : act.run s = x := h
  simp only [bind, StateT.bind, Id.run, hrun]
  rcases x with ⟨_ | _, _⟩ <;> rfl

@[simp] theorem play_get : (get : Act S C (Scene S C)).play s = (.ok s, s) := rfl

@[simp] theorem play_set (s' : Scene S C) : (set s' : Act S C Unit).play s = (.ok (), s') := rfl

/-! ### What an act cannot break -/

/-- Whether a property of scenes that holds before an act holds after it, even after a crash. -/
def Keeps (p : Scene S C → Prop) (act : Act S C α) : Prop := ∀ s, p s → p (act.play s).2

namespace Keeps

variable {p : Scene S C → Prop}

theorem pure (a : α) : Keeps p (Pure.pure a : Act S C α) := fun _ h => h

theorem bind {act : Act S C α} {f : α → Act S C β} (hact : Keeps p act)
    (hf : ∀ a, Keeps p (f a)) : Keeps p (act >>= f) := by
  intro s hs
  have hplayed := hact s hs
  rw [play_bind]
  generalize act.play s = played at hplayed
  rcases played with ⟨crash | a, s'⟩
  · exact hplayed
  · exact hf a s' hplayed

end Keeps

end Popularity.Act
