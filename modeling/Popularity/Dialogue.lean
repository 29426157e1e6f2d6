/-!
# Dialogues

A program that asks for things is written as a dialogue: it is done, or it asks a question and goes
on with the answer. Who answers, and what else happens then, is not the program's business. So one
program can be run on a clock and a store, counted, or stopped between two questions.

## Main definitions

* `Dialogue Q A α`, a monad
* `Dialogue.run` — has the questions answered in another monad
-/

namespace Popularity

/-- A program that asks questions `q : Q`, is answered by an `A q`, and ends with an `α`. -/
inductive Dialogue (Q : Type) (A : Q → Type) (α : Type) where
  | done (a : α)
  | ask (q : Q) (next : A q → Dialogue Q A α)

namespace Dialogue

variable {Q : Type} {A : Q → Type} {α β : Type}

/-- Goes on after the end. -/
def bind (d : Dialogue Q A α) (f : α → Dialogue Q A β) : Dialogue Q A β :=
  match d with
  | .done a => f a
  | .ask q next => .ask q fun a => (next a).bind f

instance : Monad (Dialogue Q A) where
  pure := .done
  bind := bind

/-- Asks one question. -/
def question (q : Q) : Dialogue Q A (A q) := .ask q .done

/-- Has every question answered by `answer`. -/
def run {m : Type → Type} [Monad m] (answer : (q : Q) → m (A q)) : Dialogue Q A α → m α
  | .done a => pure a
  | .ask q next => do run answer (next (← answer q))

@[simp] theorem done_bind (a : α) (f : α → Dialogue Q A β) : (Dialogue.done a).bind f = f a := rfl

@[simp] theorem ask_bind (q : Q) (next : A q → Dialogue Q A α) (f : α → Dialogue Q A β) :
    (Dialogue.ask q next).bind f = .ask q fun a => (next a).bind f := rfl

theorem bind_done (d : Dialogue Q A α) : d.bind .done = d := by
  induction d with
  | done a => rfl
  | ask q next ih => simp [ih]

theorem bind_assoc {γ : Type} (d : Dialogue Q A α) (f : α → Dialogue Q A β)
    (g : β → Dialogue Q A γ) : (d.bind f).bind g = d.bind fun a => (f a).bind g := by
  induction d with
  | done a => rfl
  | ask q next ih => simp [ih]

instance : LawfulMonad (Dialogue Q A) :=
  LawfulMonad.mk' _ (fun d => bind_done d) (fun _ _ => rfl) (fun d f g => bind_assoc d f g)

end Dialogue

end Popularity
