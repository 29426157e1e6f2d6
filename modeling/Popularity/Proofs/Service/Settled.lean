import Popularity.Proofs.Service.Upkeep

/-!
# Calls that are settled by the store

A call that does not look into the cache asks the store once, or not at all. When it has been
answered its result is settled: all that it still does is to leave jobs, to report, and in the case
of a single read to wait for one adjustment, and it makes nothing of what it is told then.

## Main definitions

* `Call.Settled`

## Main results

* `Service.Order.run_of_not_looksUp`
-/

namespace Popularity

namespace Call

variable {α β : Type}

/-- Whether a dialogue will end in a known way whatever it is told, asking nothing more of the
store; it may wait for one adjustment if it `awaits` any. -/
def Settled (awaits : Bool) (r : Except CallFailure α)
    (d : Dialogue Query Query.Answer (Except CallFailure α)) : Prop :=
  d.Meets (fun q => q.isAside = true) (fun _ _ => True) (· = r) ∨
    awaits = true ∧ ∃ a next, d = .ask (.adjust a) next ∧
      ∀ b, (next b).Meets (fun q => q.isAside = true) (fun _ _ => True) (· = r)

variable {awaits : Bool} {r : Except CallFailure α} {c : Call α}

theorem settled_done : Settled awaits r (.done r) := .inl rfl

/-- What becomes of an answer of the store that is taken without ado. -/
def taken (f : α → β) : Except StoreFailure α → Except CallFailure β
  | .ok a => .ok (f a)
  | .error why => .error (.store why)

/-- What a compound call says after its first question. -/
theorem run_map_ask {q : Query}
    {next : q.Answer → Dialogue Query Query.Answer (Except CallFailure α)}
    (h : c.run = .ask q next) (f : α → β) :
    (f <$> c).run = .ask q fun x => (f <$> (ExceptT.mk (next x) : Call α)).run := by
  rw [ExceptT.run_map, h]
  exact congrArg (Dialogue.ask q) (funext fun x =>
    (ExceptT.run_map f (ExceptT.mk (next x) : Call α)).symm)

theorem Settled.map (h : Settled awaits r c.run) (f : α → β) :
    Settled awaits (f <$> r) (f <$> c).run := by
  rcases h with h | ⟨haw, a, next, heq, h⟩
  · exact .inl (meets_map.mpr (h.mono fun _ hr => congrArg (f <$> ·) hr))
  · refine .inr ⟨haw, a, _, run_map_ask heq f, fun b => meets_map.mpr ?_⟩
    exact (h b).mono fun _ hr => congrArg (f <$> ·) hr

end Call

namespace Service

open Call

/-! ### After a write -/

theorem settled_reports {awaits : Bool} {rs : List Report} :
    Settled awaits (.ok ()) (rs.forM report).run :=
  .inl (meets_forM (fun _ _ => ⟨rfl, fun _ _ => rfl⟩) rfl)

theorem settled_detach {awaits : Bool} {as : List Adjustment} :
    Settled awaits (.ok ()) (as.forM fun a => detach (.adjust a)).run :=
  .inl (meets_forM (fun _ _ => ⟨rfl, fun _ _ => rfl⟩) rfl)

/-- Whatever the cache makes of an adjustment, the read that awaits it is done. -/
theorem exists_run_followRead (a : Adjustment) (within : List Span) : ∃ next,
    (followRead a within).run = .ask (.adjust a) next ∧
      ∀ b, (next b).Meets (fun q => q.isAside = true) (fun _ _ => True) (· = .ok ()) := by
  refine ⟨_, rfl, ?_⟩
  intro b
  cases b with
  | answered outcome => exact meets_forM (fun _ _ => ⟨rfl, fun _ _ => rfl⟩) rfl
  | failed why => exact ⟨rfl, fun _ _ => ⟨rfl, fun _ _ => rfl⟩⟩
  | late => exact ⟨rfl, fun _ _ => ⟨rfl, fun _ _ => rfl⟩⟩

theorem settled_followRead {a : Adjustment} {within : List Span} :
    Settled true (.ok ()) (followRead a within).run := by
  obtain ⟨next, hrun, hnext⟩ := exists_run_followRead a within
  exact .inr ⟨rfl, a, next, hrun, hnext⟩

theorem settled_follow (w : Write) : Settled (Order.record w).awaits (.ok ()) (follow w).run := by
  cases w with
  | read i => exact settled_followRead
  | readAll is => exact settled_detach
  | like i user => exact settled_detach
  | unlike i user => exact settled_detach
  | collect i user folder => exact settled_detach
  | uncollect i user folder => exact settled_detach

theorem settled_perform {w : Write} (hw : w ≠ .readAll []) : ∃ next,
    (perform w).run = .ask (.store (.write w)) next ∧
      ∀ x, Settled (Order.record w).awaits (taken (fun _ => ()) x) (next x) := by
  refine ⟨_, run_perform hw, ?_⟩
  intro x
  rcases x with why | b
  · exact settled_done
  · cases b with
    | false => exact settled_reports
    | true => exact settled_follow w

/-! ### After a lookup that the cache has no part in -/

theorem settled_marked {awaits : Bool} (m : Mark) (i : Item) (user : Int64) : ∃ next,
    (marked m i user).run = .ask (.store (.marked m i user)) next ∧
      ∀ x, Settled awaits (found x) (next x) := by
  refine ⟨_, by rw [marked, run_ask_bind], ?_⟩
  intro x
  cases found x <;> exact settled_done

theorem settled_listed {awaits : Bool} (kind : String) (ids : List Int64) : ∃ next,
    (listed kind ids).run = .ask (.store (.countsOf kind ids)) next ∧
      ∀ x, Settled awaits (taken (fun l => l.map fun (i, n) => Summary.ofCounts i n) x)
        (next x) := by
  refine ⟨_, run_store_bind _ _, ?_⟩
  intro x
  cases x <;> exact settled_done

/-! ### All orders -/

/-- **An order that does not look into the cache is settled by the store**, or settled from the
beginning. -/
theorem Order.run_of_not_looksUp {o : Order} (ho : o.looksUp = false) :
    (o.request? = none ∧ ∃ r, o.call.run = .done r) ∨
      ∃ q next, ∃ settled : Except StoreFailure q.Answer → Except CallFailure Answer,
        o.request? = some q ∧ o.call.run = .ask (.store q) next ∧
          ∀ x, Settled o.awaits (settled x) (next x) := by
  cases o with
  | record w =>
    by_cases hw : w = .readAll []
    · subst hw
      exact .inl ⟨rfl, _, rfl⟩
    · obtain ⟨next, hrun, hnext⟩ := settled_perform hw
      exact .inr ⟨.write w, _, _, if_neg hw, run_map_ask hrun _, fun x => (hnext x).map _⟩
  | recordZipped kinds ids =>
    simp only [request?, call, readZipped]
    cases Item.zip? kinds ids with
    | none => exact .inl ⟨rfl, _, rfl⟩
    | some is =>
      by_cases his : is = []
      · subst his
        exact .inl ⟨rfl, _, rfl⟩
      · obtain ⟨next, hrun, hnext⟩ := settled_perform (w := .readAll is) (by simpa using his)
        exact .inr ⟨.write (.readAll is), _, _, if_neg his, run_map_ask hrun _,
          fun x => (hnext x).map _⟩
  | marked m i user =>
    obtain ⟨next, hrun, hnext⟩ := settled_marked m i user
    exact .inr ⟨_, _, _, rfl, run_map_ask hrun _, fun x => (hnext x).map _⟩
  | listed kind ids =>
    obtain ⟨next, hrun, hnext⟩ := settled_listed kind ids
    exact .inr ⟨_, _, _, rfl, run_map_ask hrun _, fun x => (hnext x).map _⟩
  | byId kind ids =>
    obtain ⟨next, hrun, hnext⟩ := settled_listed kind ids
    have hbyId := run_map_ask hrun fun l =>
      l.foldl (fun t s => Table.put t s.item.id s) ([] : Table Int64 Summary)
    exact .inr ⟨_, _, _, rfl, run_map_ask hbyId _, fun x => ((hnext x).map _).map _⟩
  | counts i => cases ho
  | summary i user => cases ho

end Service

end Popularity
