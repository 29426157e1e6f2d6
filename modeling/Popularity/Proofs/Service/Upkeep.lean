import Popularity.Proofs.Service.Order

/-!
# What a call owes to the cache

An answer of the store can oblige a call to upkeep: after a write that changed something its
adjustments are due, and after counts that were found their populating is. Every call of the service
discharges these obligations at once, in their order and before anything else that may matter, and
takes on no upkeep without such an answer. That is all that ties the cache to the store.

What is due can be read off the call: it is what the call leaves or awaits before it asks anything
else.

## Main definitions

* `Call.Query.owes` — the upkeep that an answer obliges to
* `Call.due` — the upkeep that a call is about to see to
* `Call.Dutiful` — the upkeep due is always what the last answer obliged to

## Main results

* `Service.Order.due_call`, `Service.Order.dutiful_call` — every call of the service is dutiful
-/

namespace Popularity

namespace Call

/-! ### Obligations -/

namespace Query

/-- The upkeep that an answer obliges to. -/
def owes : (q : Query) → q.Answer → List Upkeep
  | .store (.write w), .ok true => w.adjustments.map .adjust
  | .store (.counts i), .ok (some n) => [.populate i n]
  | _, _ => []

/-- Whether a question is put only to be rid of something. -/
def isAside : Query → Bool
  | .detach _ | .report _ => true
  | _ => false

@[simp] theorem owes_write {w : Write} : owes (.store (.write w)) (.ok true) =
    w.adjustments.map .adjust := rfl

@[simp] theorem owes_store_error {r : Request} {why : StoreFailure} :
    owes (.store r) (.error why) = [] := by
  cases r <;> rfl

end Query

variable {α β : Type}

/-- The upkeep that a dialogue is about to see to. -/
def due : Dialogue Query Query.Answer α → List Upkeep
  | .ask (.detach u) next => u :: due (next ())
  | .ask (.report _) next => due (next ())
  | .ask (.adjust a) _ => [.adjust a]
  | _ => []

/-- Whatever a dialogue is answered, the upkeep due next is what the answer obliges to. -/
def Dutiful : Dialogue Query Query.Answer α → Prop
  | .done _ => True
  | .ask q next => ∀ a, (q.isAside = false → due (next a) = q.owes a) ∧ Dutiful (next a)

section Due

variable {a : α} {i : Item}

@[simp] theorem due_done : due (.done a : Dialogue Query Query.Answer α) = [] := rfl

@[simp] theorem due_store {r : Request} {next : Except StoreFailure r.Answer → _} :
    due (.ask (.store r) next : Dialogue Query Query.Answer α) = [] := rfl

@[simp] theorem due_marks {user : Int64} {next : _ → _} :
    due (.ask (.marks i user) next : Dialogue Query Query.Answer α) = [] := rfl

@[simp] theorem due_cached {next : _ → _} :
    due (.ask (.cached i) next : Dialogue Query Query.Answer α) = [] := rfl

@[simp] theorem due_adjust {b : Adjustment} {next : _ → _} :
    due (.ask (.adjust b) next : Dialogue Query Query.Answer α) = [.adjust b] := rfl

@[simp] theorem due_detach {u : Upkeep} {next : Unit → _} :
    due (.ask (.detach u) next : Dialogue Query Query.Answer α) = u :: due (next ()) := rfl

@[simp] theorem due_report {r : Report} {next : Unit → _} :
    due (.ask (.report r) next : Dialogue Query Query.Answer α) = due (next ()) := rfl

end Due

/-! ### Compound calls -/

theorem due_bind {d : Dialogue Query Query.Answer α} {f : α → Dialogue Query Query.Answer β}
    (hf : ∀ a, due (f a) = []) : due (d >>= f) = due d := by
  change due (d.bind f) = due d
  induction d with
  | done a => exact hf a
  | ask q next ih =>
    cases q with
    | detach u => exact congrArg (u :: ·) (ih ())
    | report r => exact ih ()
    | store r => rfl
    | marks i user => rfl
    | cached i => rfl
    | adjust a => rfl

theorem Dutiful.bind {d : Dialogue Query Query.Answer α} {f : α → Dialogue Query Query.Answer β}
    (hd : Dutiful d) (hdue : ∀ a, due (f a) = []) (hf : ∀ a, Dutiful (f a)) :
    Dutiful (d >>= f) := by
  change Dutiful (d.bind f)
  induction d with
  | done a => exact hf a
  | ask q next ih =>
    intro a
    exact ⟨fun hq => (due_bind hdue).trans ((hd a).1 hq), ih a (hd a).2⟩

/-- The same for calls, which may end before the second part. -/
theorem due_run_bind {c : Call α} {f : α → Call β} (hf : ∀ a, due (f a).run = []) :
    due (c >>= f).run = due c.run := by
  rw [ExceptT.run_bind]
  exact due_bind fun
    | .ok a => hf a
    | .error _ => rfl

theorem Dutiful.run_bind {c : Call α} {f : α → Call β} (hc : Dutiful c.run)
    (hdue : ∀ a, due (f a).run = []) (hf : ∀ a, Dutiful (f a).run) : Dutiful (c >>= f).run := by
  rw [ExceptT.run_bind]
  refine hc.bind ?_ ?_
  · intro r
    cases r with
    | ok a => exact hdue a
    | error why => rfl
  · intro r
    cases r with
    | ok a => exact hf a
    | error why => trivial

theorem due_run_map {c : Call α} (f : α → β) : due (f <$> c).run = due c.run := by
  rw [← bind_pure_comp]
  exact due_run_bind fun _ => rfl

theorem Dutiful.run_map {c : Call α} (f : α → β) (hc : Dutiful c.run) : Dutiful (f <$> c).run := by
  rw [← bind_pure_comp]
  exact hc.run_bind (fun _ => rfl) fun _ => trivial

/-- Saying things obliges to nothing. -/
theorem due_forM_report {rs : List Report} : due (rs.forM report).run = [] := by
  induction rs with
  | nil => rfl
  | cons r rs ih => exact ih

theorem dutiful_forM_report {rs : List Report} : Dutiful (rs.forM report).run := by
  induction rs with
  | nil => trivial
  | cons r rs ih => exact fun _ => ⟨nofun, ih⟩

theorem due_forM_detach {as : List Adjustment} :
    due (as.forM fun a => detach (.adjust a)).run = as.map .adjust := by
  induction as with
  | nil => rfl
  | cons a as ih => exact congrArg (Upkeep.adjust a :: ·) ih

theorem dutiful_forM_detach {as : List Adjustment} :
    Dutiful (as.forM fun a => detach (.adjust a)).run := by
  induction as with
  | nil => trivial
  | cons a as ih => exact fun _ => ⟨nofun, ih⟩

/-- A request that obliges to nothing, and a call that takes its answer without ado. -/
theorem Dutiful.store_bind {r : Request} {f : r.Answer → Call α}
    (hr : ∀ a : Except StoreFailure r.Answer, Query.owes (.store r) a = [])
    (hdue : ∀ a, due (f a).run = []) (hf : ∀ a, Dutiful (f a).run) :
    Dutiful (store r >>= f).run := by
  rw [run_store_bind]
  intro a
  cases a with
  | ok a => exact ⟨fun _ => (hdue a).trans (hr _).symm, hf a⟩
  | error why => exact ⟨fun _ => (hr _).symm, trivial⟩

end Call

/-! ### The calls of the service -/

namespace Service

open Call

theorem due_followRead {a : Adjustment} {within : List Span} :
    due (followRead a within).run = [.adjust a] := rfl

theorem dutiful_followRead {a : Adjustment} {within : List Span} :
    Dutiful (followRead a within).run := by
  intro b
  cases b with
  | answered outcome => exact ⟨fun _ => due_forM_report, dutiful_forM_report⟩
  | failed why => exact ⟨fun _ => rfl, fun _ => ⟨nofun, fun _ => ⟨nofun, trivial⟩⟩⟩
  | late => exact ⟨fun _ => rfl, fun _ => ⟨nofun, fun _ => ⟨nofun, trivial⟩⟩⟩

theorem due_follow (w : Write) : due (follow w).run = w.adjustments.map .adjust := by
  cases w with
  | read i => exact due_followRead
  | readAll is => exact due_forM_detach
  | like i user => rfl
  | unlike i user => rfl
  | collect i user folder => rfl
  | uncollect i user folder => rfl

theorem dutiful_follow (w : Write) : Dutiful (follow w).run := by
  cases w with
  | read i => exact dutiful_followRead
  | readAll is => exact dutiful_forM_detach
  | like i user => exact dutiful_forM_detach
  | unlike i user => exact dutiful_forM_detach
  | collect i user folder => exact dutiful_forM_detach
  | uncollect i user folder => exact dutiful_forM_detach

/-- The first question of a write that is one. -/
theorem run_perform {w : Write} (hw : w ≠ .readAll []) :
    (perform w).run = .ask (.store (.write w)) fun
      | .ok true => (follow w).run
      | .ok false => ((unchanged w).forM report).run
      | .error why => .done (.error (.store why)) := by
  rw [perform, if_neg hw]
  change Dialogue.ask _ _ = Dialogue.ask _ _
  congr 1
  funext a
  rcases a with why | b
  · rfl
  · cases b <;> rfl

theorem due_perform (w : Write) : due (perform w).run = [] := by
  by_cases hw : w = .readAll []
  · subst hw; rfl
  · rw [run_perform hw]; rfl

theorem dutiful_perform (w : Write) : Dutiful (perform w).run := by
  by_cases hw : w = .readAll []
  · subst hw; trivial
  rw [run_perform hw]
  intro a
  rcases a with why | b
  · exact ⟨fun _ => rfl, trivial⟩
  · cases b with
    | false => exact ⟨fun _ => due_forM_report, dutiful_forM_report⟩
    | true => exact ⟨fun _ => due_follow w, dutiful_follow w⟩

/-- Counts that were found are due to be populated, and nothing else is. -/
theorem dutiful_fetch (i : Item) : Dutiful (fetch i).run := by
  rw [fetch, run_store_bind]
  intro a
  rcases a with why | n
  · exact ⟨fun _ => rfl, trivial⟩
  · cases n with
    | none => exact ⟨fun _ => rfl, trivial⟩
    | some n => exact ⟨fun _ => rfl, fun _ => ⟨nofun, trivial⟩⟩

theorem dutiful_counts (i : Item) (within : List Span) : Dutiful (counts i within).run := by
  intro a
  rcases a with why | n
  · exact ⟨fun _ => rfl, fun _ => ⟨nofun, fun _ => ⟨nofun, dutiful_fetch i⟩⟩⟩
  · cases n with
    | none => exact ⟨fun _ => rfl, fun _ => ⟨nofun, dutiful_fetch i⟩⟩
    | some n => exact ⟨fun _ => rfl, fun _ => ⟨nofun, trivial⟩⟩

theorem due_markOr {within : List Span} {user : Int64} {what : String}
    {looked : Except StoreFailure Bool} : due (markOr within user what looked).run = [] := by
  unfold markOr
  cases found looked <;> rfl

theorem dutiful_markOr {within : List Span} {user : Int64} {what : String}
    {looked : Except StoreFailure Bool} : Dutiful (markOr within user what looked).run := by
  unfold markOr
  cases found looked with
  | ok b => trivial
  | error why => exact fun _ => ⟨nofun, trivial⟩

/-- To look up the marks obliges to nothing. -/
theorem dutiful_summary (i : Item) (user : Int64) : Dutiful (summary i user).run := by
  refine (dutiful_counts i _).run_bind (fun _ => rfl) ?_
  intro n
  rw [run_ask_bind]
  rintro ⟨liked, collected⟩
  constructor
  · intro _
    exact (due_run_bind fun _ => (due_run_bind fun _ => rfl).trans due_markOr).trans due_markOr
  · exact dutiful_markOr.run_bind (fun _ => (due_run_bind fun _ => rfl).trans due_markOr)
      fun _ => dutiful_markOr.run_bind (fun _ => rfl) fun _ => trivial

theorem dutiful_marked (m : Mark) (i : Item) (user : Int64) : Dutiful (marked m i user).run := by
  rw [marked, run_ask_bind]
  intro a
  dsimp only
  cases found a with
  | ok b => exact ⟨fun _ => rfl, trivial⟩
  | error why => exact ⟨fun _ => rfl, trivial⟩

theorem dutiful_listed (kind : String) (ids : List Int64) : Dutiful (listed kind ids).run :=
  Dutiful.store_bind (fun _ => rfl) (fun _ => rfl) fun _ => trivial

namespace Order

/-- No call owes anything when it begins. -/
theorem due_call (o : Order) : due o.call.run = [] := by
  cases o with
  | record w => exact (due_run_map _).trans (due_perform w)
  | recordZipped kinds ids =>
    rw [call, due_run_map, readZipped]
    cases Item.zip? kinds ids with
    | none => rfl
    | some is => exact due_perform _
  | counts i => rfl
  | summary i user => rfl
  | marked m i user => rfl
  | listed kind ids => rfl
  | byId kind ids => rfl

/-- **Every call of the service is dutiful.** -/
theorem dutiful_call (o : Order) : Dutiful o.call.run := by
  cases o with
  | record w => exact (dutiful_perform w).run_map _
  | recordZipped kinds ids =>
    refine Dutiful.run_map _ ?_
    unfold readZipped
    cases Item.zip? kinds ids with
    | none => trivial
    | some is => exact dutiful_perform _
  | counts i => exact ((dutiful_counts i _).run_map _).run_map _
  | summary i user => exact (dutiful_summary i user).run_map _
  | marked m i user => exact (dutiful_marked m i user).run_map _
  | listed kind ids => exact (dutiful_listed kind ids).run_map _
  | byId kind ids => exact ((dutiful_listed kind ids).run_map _).run_map _

end Order

end Service

end Popularity
