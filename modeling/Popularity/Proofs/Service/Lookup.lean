import Popularity.Proofs.Service.Order

/-!
# What a lookup says

An order for the counts of an item asks the cache first, and the store only if the cache has no
answer. Whatever it says of the row comes from one of the two. So if both say of the row only what
is true in some sense, then so does the lookup; what sense that is does not matter, and the marks of
a user have no part in it.

## Main definitions

* `Service.Order.Agrees` — a result that says of a row only what holds
* `Service.Lookup.asks`, `Service.Lookup.hears`, `Service.Lookup.isGlance`
* `Service.Lookup.Fetching` — a lookup that the cache has not answered

## Main results

* `Service.Order.call_of_looksUp` — the counts come first
* `Service.Order.meets_of_looksUp`
* `Service.Lookup.run_fetch_bind`, `Service.Lookup.exists_run_counts` — the answers one by one
-/

namespace Popularity.Service

/-! ### Results -/

/-- Whether a result says of the row of an item only what holds, or is an error of the store. -/
def Order.Agrees (i : Item) (holds : Option Counts → Prop) : Except CallFailure Answer → Prop
  | .ok (.summary s) => s.item = i ∧ holds (some s.counts)
  | .error (.store _) => True
  | .error (.uncounted j) => j = i ∧ holds none
  | _ => False

namespace Lookup

/-- What a lookup may still ask when the cache has answered. -/
def asks (i : Item) : Call.Query → Prop
  | .store r => r = .counts i
  | .cached _ | .adjust _ => False
  | .marks .. | .detach _ | .report _ => True

/-- Whether the store says of a row only what holds. -/
def hears (holds : Option Counts → Prop) : (q : Call.Query) → q.Answer → Prop
  | .store (.counts _), .ok n => holds n
  | _, _ => True

/-- Whether a question is about the marks of a user, or no question at all. -/
def isGlance : Call.Query → Bool
  | .marks .. | .report _ => true
  | _ => false

variable {i : Item} {holds : Option Counts → Prop}

/-- If everything holds, then whatever is heard does. -/
theorem hears_true (q : Call.Query) (x : q.Answer) : hears (fun _ => True) q x := by
  unfold hears
  split <;> trivial

theorem meets_fetch {α : Type} {f : Counts → Call α} {ends : Except CallFailure α → Prop}
    (hf : ∀ n, holds (some n) → (f n).run.Meets (asks i) (hears holds) ends)
    (hnone : holds none → ends (.error (.uncounted i)))
    (hwhy : ∀ why, ends (.error (.store why))) :
    (fetch i >>= f).run.Meets (asks i) (hears holds) ends := by
  refine ⟨rfl, ?_⟩
  intro x hx
  rcases x with why | n
  · exact hwhy why
  · cases n with
    | none => exact hnone hx
    | some n => exact ⟨trivial, fun _ _ => hf n hx⟩

/-- The counts that come after the answer of the cache. -/
theorem meets_counts {α : Type} {f : Counts → Call α} {within : List Span}
    {ends : Except CallFailure α → Prop}
    (hf : ∀ n, holds (some n) → (f n).run.Meets (asks i) (hears holds) ends)
    (hnone : holds none → ends (.error (.uncounted i)))
    (hwhy : ∀ why, ends (.error (.store why))) :
    ∃ next, (counts i within >>= f).run = .ask (.cached i) next ∧
      ∀ x, (∀ n, x = .ok (some n) → holds (some n)) →
        (next x).Meets (asks i) (hears holds) ends := by
  refine ⟨_, rfl, ?_⟩
  intro x hx
  have hfetch := meets_fetch hf hnone hwhy
  rcases x with why | n
  · exact ⟨trivial, fun _ _ => ⟨trivial, fun _ _ => hfetch⟩⟩
  · cases n with
    | none => exact ⟨trivial, fun _ _ => hfetch⟩
    | some n => exact ⟨trivial, fun _ _ => hf n (hx n rfl)⟩

theorem meets_markOr {α : Type} {f : Bool → Call α} {within : List Span} {user : Int64}
    {what : String} {looked : Except StoreFailure Bool} {ends : Except CallFailure α → Prop}
    (hf : ∀ b, (f b).run.Meets (fun q => isGlance q = true) (fun _ _ => True) ends) :
    (markOr within user what looked >>= f).run.Meets (fun q => isGlance q = true) (fun _ _ => True)
      ends := by
  unfold markOr
  cases found looked with
  | ok b => exact hf b
  | error why => exact ⟨rfl, fun _ _ => hf false⟩

end Lookup

/-! ### Lookups -/

/-- A lookup gets the counts, and at most glances at the marks then. -/
theorem Order.call_of_looksUp {i : Item} {o : Order} (ho : o.LooksUp i) :
    ∃ within, ∃ f : Counts → Call Answer, o.call = Service.counts i within >>= f ∧
      ∀ n, (f n).run.Meets (fun q => Lookup.isGlance q = true) (fun _ _ => True)
        fun r => ∃ s, r = .ok (.summary s) ∧ s.item = i ∧ s.counts = n := by
  rcases ho with rfl | ⟨user, rfl⟩
  · refine ⟨_, _, by rw [Order.call, publicSummary, map_bind], ?_⟩
    intro n
    exact ⟨_, rfl, rfl, rfl⟩
  · refine ⟨_, _, by rw [Order.call, Service.summary, map_bind], ?_⟩
    intro n
    simp only [map_bind]
    refine ⟨rfl, ?_⟩
    intro looked _
    exact Lookup.meets_markOr fun liked => Lookup.meets_markOr fun collected => ⟨_, rfl, rfl, rfl⟩

/-- **What a lookup says holds** if all it hears does. -/
theorem Order.meets_of_looksUp {i : Item} {o : Order} (ho : o.LooksUp i)
    (holds : Option Counts → Prop) : ∃ next, o.call.run = .ask (.cached i) next ∧
      ∀ x, (∀ n, x = .ok (some n) → holds (some n)) →
        (next x).Meets (Lookup.asks i) (Lookup.hears holds) (Agrees i holds) := by
  obtain ⟨within, f, hcall, hf⟩ := o.call_of_looksUp ho
  rw [hcall]
  refine Lookup.meets_counts ?_ (fun hn => ⟨rfl, hn⟩) fun _ => trivial
  intro n hn
  refine (hf n).imp ?_ (fun _ _ _ => trivial) ?_
  · intro q hq
    cases q <;> trivial
  · rintro r ⟨s, rfl, hi, rfl⟩
    exact ⟨hi, hn⟩

/-- The same of a lookup whose first question is known already. -/
theorem Order.meets_of_run_eq {i : Item} {o : Order} (ho : o.LooksUp i)
    {next : Except CacheFailure (Option Counts) → _} (hrun : o.call.run = .ask (.cached i) next)
    (holds : Option Counts → Prop) {x : Except CacheFailure (Option Counts)}
    (hx : ∀ n, x = .ok (some n) → holds (some n)) :
    (next x).Meets (Lookup.asks i) (Lookup.hears holds) (Agrees i holds) := by
  obtain ⟨next', hrun', hmeets⟩ := o.meets_of_looksUp ho holds
  cases hrun.symm.trans hrun'
  exact hmeets x hx

/-! ### Lookups that the cache does not answer -/

namespace Lookup

/-- A lookup under way. -/
abbrev Underway : Type := Dialogue Call.Query Call.Query.Answer (Except CallFailure Answer)

/-- What is left of a lookup that the cache has not answered: reports, and then the store. -/
inductive Fetching (i : Item) (f : Counts → Call Answer) : Underway → Prop
  | fetch : Fetching i f (fetch i >>= f).run
  | report (r : Report) {next : Unit → Underway} (h : Fetching i f (next ())) :
    Fetching i f (.ask (.report r) next)

/-- What becomes of the answer of the store. -/
def afterStore (i : Item) (f : Counts → Call Answer) :
    Except StoreFailure (Option Counts) → Underway
  | .ok (some n) => .ask (.detach (.populate i n)) fun _ => (f n).run
  | .ok none => .done (.error (.uncounted i))
  | .error why => .done (.error (.store why))

theorem run_fetch_bind (i : Item) (f : Counts → Call Answer) :
    (fetch i >>= f).run = .ask (.store (.counts i)) (afterStore i f) := by
  change Dialogue.ask _ _ = Dialogue.ask _ _
  congr 1
  funext x
  rcases x with why | n
  · rfl
  · cases n <;> rfl

/-- The answer of the cache is taken, or the lookup goes on to the store. -/
theorem exists_run_counts (i : Item) (within : List Span) (f : Counts → Call Answer) :
    ∃ next, (Service.counts i within >>= f).run = .ask (.cached i) next ∧
      (∀ n, next (.ok (some n)) = .ask (.report (.count .cacheHit)) fun _ => (f n).run) ∧
      ∀ x, (∀ n, x ≠ .ok (some n)) → Fetching i f (next x) := by
  refine ⟨_, rfl, fun _ => rfl, ?_⟩
  intro x hx
  rcases x with why | n
  · exact .report _ (.report _ .fetch)
  · cases n with
    | none => exact .report _ .fetch
    | some n => exact absurd rfl (hx n)

end Lookup

end Popularity.Service
