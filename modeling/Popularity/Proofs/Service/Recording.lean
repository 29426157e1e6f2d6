import Popularity.Proofs.Service.Lookup
import Popularity.Proofs.Service.Settled

/-!
# Recording and looking up

An order is either for one write or for none. If it is for a write, the write is the first thing
that its call asks for; a refusal is passed on at once, and otherwise nothing is left to do but to
let the cache follow. If it is for no write, its call asks for none, and it never waits for an
adjustment of the cache either.

## Main definitions

* `Call.Query.isLookup` — the questions that neither record anything nor have the cache adjusted
* `Call.Reports` — a call that is all but at its end

## Main results

* `Service.Order.run_of_records`, `Service.Order.meets_lookup`
-/

namespace Popularity

namespace Call

/-- Whether a question neither asks for a write nor waits for an adjustment. -/
def Query.isLookup : Query → Bool
  | .store (.write _) | .adjust _ => false
  | _ => true

theorem Query.isLookup_of_isAside {q : Query} (h : q.isAside = true) : q.isLookup = true := by
  cases q <;> first | rfl | cases h

variable {α : Type} {d : Dialogue Query Query.Answer α} {r : α}

/-- Whether a dialogue ends in a known way and only reports until then. -/
def Reports (r : α) (d : Dialogue Query Query.Answer α) : Prop :=
  d.Meets (fun q => ∃ r, q = .report r) (fun _ _ => True) (· = r)

/-- Who says nothing but asides, and has no upkeep due, only reports. -/
theorem Reports.of_due (h : d.Meets (fun q => q.isAside = true) (fun _ _ => True) (· = r))
    (hdue : due d = []) : Reports r d := by
  induction d with
  | done a => exact h
  | ask q next ih =>
    obtain ⟨hq, hnext⟩ := h
    cases q with
    | report w => exact ⟨⟨w, rfl⟩, fun a _ => ih a (hnext a trivial) hdue⟩
    | detach u => cases hdue
    | store w => cases hq
    | marks i user => cases hq
    | cached i => cases hq
    | adjust a => cases hq

/-- Nothing is due then. -/
theorem Reports.due_eq_nil (h : Reports r d) : due d = [] := by
  induction d with
  | done a => rfl
  | ask q next ih =>
    obtain ⟨⟨w, rfl⟩, hnext⟩ := h
    exact ih () (hnext () trivial)

end Call

namespace Service

open Call

/-- What becomes of a write that was answered. -/
abbrev toldWrite : Except StoreFailure Bool → Except CallFailure Answer := taken fun _ => .recorded

namespace Order

/-- **An order for a write asks for it first.** A refusal is passed on at once; otherwise the call
is settled, and at most leaves upkeep or awaits one adjustment. -/
theorem run_of_records {o : Order} {w : Write} (ho : o.request? = some (.write w)) : ∃ next,
    o.call.run = .ask (.store (.write w)) next ∧
      (∀ why, next (.error why) = .done (.error (.store why))) ∧
      ∀ x, Settled o.awaits (toldWrite x) (next x) := by
  have hperform : ∀ v, v ≠ .readAll [] → ∃ next,
      ((fun _ => Answer.recorded) <$> perform v).run = .ask (.store (.write v)) next ∧
        (∀ why, next (.error why) = .done (.error (.store why))) ∧
        ∀ x, Settled (Order.record v).awaits (toldWrite x) (next x) := by
    intro v hv
    obtain ⟨next, hrun, hnext⟩ := settled_perform hv
    refine ⟨_, run_map_ask hrun _, ?_, ?_⟩
    · intro why
      cases hrun.symm.trans (run_perform hv)
      rfl
    · intro x
      have hx := (hnext x).map (c := ExceptT.mk (next x)) fun _ => Answer.recorded
      cases x <;> exact hx
  cases o with
  | record v =>
    rw [request?] at ho
    split at ho
    next => cases ho
    next hv => cases ho; exact hperform w hv
  | recordZipped kinds ids =>
    simp only [request?] at ho
    simp only [call, readZipped]
    cases hz : Item.zip? kinds ids with
    | none => rw [hz] at ho; cases ho
    | some is =>
      rw [hz] at ho
      dsimp only at ho
      split at ho
      next => cases ho
      next his => cases ho; exact hperform (.readAll is) (by simpa using his)
  | counts i => cases ho
  | summary i user => cases ho
  | marked m i user => cases ho
  | listed kind ids => cases ho
  | byId kind ids => cases ho

/-- Only an order for a single read waits for the cache. -/
theorem eq_of_awaits {o : Order} (h : o.awaits = true) : ∃ i, o = .record (.read i) := by
  unfold awaits at h
  split at h
  · exact ⟨_, rfl⟩
  · cases h

/-- A call whose first question is all that it asks of the store. -/
theorem meets_lookup_of_settled {q : Request} {next : _ → _} {o : Order}
    {settled : Except StoreFailure q.Answer → Except CallFailure Answer}
    (hq : Query.isLookup (.store q) = true) (ho : o.awaits = false)
    (hrun : o.call.run = .ask (.store q) next) (h : ∀ x, Settled o.awaits (settled x) (next x)) :
    o.call.run.Meets (fun q => q.isLookup = true) (fun _ _ => True) (fun _ => True) := by
  rw [hrun]
  refine ⟨hq, fun x _ => ?_⟩
  rcases h x with hx | ⟨haw, -⟩
  · exact hx.imp (fun _ => Query.isLookup_of_isAside) (fun _ _ => id) fun _ _ => trivial
  · rw [ho] at haw
    cases haw

/-- **An order for no write asks for none**, and awaits no adjustment. -/
theorem meets_lookup {o : Order} (ho : ∀ w, o.request? ≠ some (.write w)) :
    o.call.run.Meets (fun q => q.isLookup = true) (fun _ _ => True) (fun _ => True) := by
  by_cases hlook : o.looksUp = true
  · obtain ⟨i, hi⟩ := looksUp_iff.mp hlook
    obtain ⟨next, hrun, hnext⟩ := meets_of_looksUp hi fun _ => True
    rw [hrun]
    refine ⟨rfl, fun x _ => (hnext x fun _ _ => trivial).imp ?_ ?_ fun _ _ => trivial⟩
    · intro q hq
      cases q with
      | store r => cases hq; rfl
      | adjust a => cases hq
      | marks | cached | detach | report => rfl
    · exact fun q a _ => Lookup.hears_true q a
  · rcases run_of_not_looksUp (Bool.eq_false_iff.mpr hlook) with
      ⟨-, r, hrun⟩ | ⟨q, next, settled, hq, hrun, hnext⟩
    · rw [hrun]
      trivial
    · refine meets_lookup_of_settled ?_ ?_ hrun hnext
      · cases q with
        | write w => exact absurd hq (ho w)
        | counts | countsOf | marked => rfl
      · cases o with
        | record w =>
          rw [request?] at hq
          split at hq
          next => cases hq
          next hw => exact absurd (if_neg hw) (ho w)
        | recordZipped | counts | summary | marked | listed | byId => rfl

end Order

end Service

end Popularity
