import Popularity.Call

/-!
# Contracts of dialogues

A dialogue says what it asks and what it makes of each answer. `Dialogue.Meets` is what can be known
of it before it is run: which questions it may ask, and how it may end, provided that the answers it
hears are of a known sort. The contract of a compound dialogue is put together from those of its
parts, and whoever answers the questions only has to keep to the sort of answers.

## Main definitions

* `Dialogue.Meets`

## Main results

* `Dialogue.meets_bind`, `Call.meets_bind`
-/

namespace Popularity

namespace Dialogue

variable {Q : Type} {A : Q → Type} {α β : Type}
variable {asks : Q → Prop} {hears : (q : Q) → A q → Prop}

/-- Asks nothing but what `asks` allows and ends in a way that `ends` allows, as long as it hears
nothing but what `hears` allows. -/
def Meets (asks : Q → Prop) (hears : (q : Q) → A q → Prop) (ends : α → Prop) :
    Dialogue Q A α → Prop
  | .done a => ends a
  | .ask q next => asks q ∧ ∀ a, hears q a → Meets asks hears ends (next a)

@[simp] theorem meets_done {ends : α → Prop} {a : α} :
    (done a : Dialogue Q A α).Meets asks hears ends ↔ ends a := Iff.rfl

@[simp] theorem meets_ask {ends : α → Prop} {q : Q} {next : A q → Dialogue Q A α} :
    (ask q next).Meets asks hears ends ↔
      asks q ∧ ∀ a, hears q a → (next a).Meets asks hears ends := Iff.rfl

theorem meets_bind {ends : β → Prop} {d : Dialogue Q A α} {f : α → Dialogue Q A β} :
    (d >>= f).Meets asks hears ends ↔
      d.Meets asks hears fun a => (f a).Meets asks hears ends := by
  change (d.bind f).Meets asks hears ends ↔ _
  induction d with
  | done a => rfl
  | ask q next ih => simp only [ask_bind, meets_ask, ih]

/-- Every dialogue asks something and ends somehow. -/
theorem meets_true (d : Dialogue Q A α) :
    d.Meets (fun _ => True) hears (fun _ => True) := by
  induction d with
  | done a => trivial
  | ask q next ih => exact ⟨trivial, fun a _ => ih a⟩

/-- To be allowed more, and to hear less, is easier. -/
theorem Meets.imp {asks' : Q → Prop} {hears' : (q : Q) → A q → Prop} {ends ends' : α → Prop}
    {d : Dialogue Q A α} (h : d.Meets asks hears ends) (hasks : ∀ q, asks q → asks' q)
    (hhears : ∀ q a, hears' q a → hears q a) (hends : ∀ a, ends a → ends' a) :
    d.Meets asks' hears' ends' := by
  induction d with
  | done a => exact hends a h
  | ask q next ih => exact ⟨hasks q h.1, fun a ha => ih a (h.2 a (hhears q a ha))⟩

theorem Meets.mono {ends ends' : α → Prop} {d : Dialogue Q A α} (h : d.Meets asks hears ends)
    (hends : ∀ a, ends a → ends' a) : d.Meets asks hears ends' :=
  h.imp (fun _ => id) (fun _ _ => id) hends

end Dialogue

namespace Call

variable {α β : Type} {asks : Query → Prop} {hears : (q : Query) → q.Answer → Prop}

theorem meets_bind {ends : Except CallFailure β → Prop} {c : Call α} {f : α → Call β} :
    (c >>= f).run.Meets asks hears ends ↔ c.run.Meets asks hears fun
      | .ok a => (f a).run.Meets asks hears ends
      | .error why => ends (.error why) := by
  rw [ExceptT.run_bind, Dialogue.meets_bind]
  refine Iff.of_eq (congrArg (fun p => Dialogue.Meets asks hears p c.run) (funext fun r => ?_))
  cases r <;> rfl

theorem meets_map {ends : Except CallFailure β → Prop} {c : Call α} {f : α → β} :
    (f <$> c).run.Meets asks hears ends ↔ c.run.Meets asks hears fun r => ends (f <$> r) := by
  rw [ExceptT.run_map, ← bind_pure_comp, Dialogue.meets_bind]
  exact Iff.rfl

@[simp] theorem meets_pure {ends : Except CallFailure α → Prop} {a : α} :
    (pure a : Call α).run.Meets asks hears ends ↔ ends (.ok a) := Iff.rfl

@[simp] theorem meets_throw {ends : Except CallFailure α → Prop} {why : CallFailure} :
    (throw why : Call α).run.Meets asks hears ends ↔ ends (.error why) := Iff.rfl

@[simp] theorem meets_ask {q : Query} {ends : Except CallFailure q.Answer → Prop} :
    (ask q).run.Meets asks hears ends ↔ asks q ∧ ∀ a, hears q a → ends (.ok a) := Iff.rfl

/-- To say several things is to say each of them. -/
theorem meets_forM {ι : Type} {ends : Except CallFailure Unit → Prop} {as : List ι}
    {f : ι → Call Unit} (hf : ∀ a ∈ as, (f a).run.Meets asks hears (· = .ok ()))
    (hends : ends (.ok ())) : (as.forM f).run.Meets asks hears ends := by
  induction as with
  | nil => exact hends
  | cons a as ih =>
    change (f a >>= fun _ => as.forM f).run.Meets asks hears ends
    rw [meets_bind]
    refine (hf a List.mem_cons_self).mono ?_
    rintro r rfl
    exact ih fun b hb => hf b (List.mem_cons_of_mem a hb)

end Call

end Popularity
