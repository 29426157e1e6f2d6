import Popularity.Service
import Popularity.Proofs.Dialogue

/-!
# Orders

Everything that can be asked of the service, as data, so that whole sessions and crowds of calls can
be spoken of. Nothing is added: an order stands for a call of `Popularity.Service`.

## Main definitions

* `Service.Order`, its `call` and its `Service.Answer`
* `Service.Order.LooksUp` — the orders that may be answered from the cache
* `Service.Order.request?` — what the others ask of the store
* `Service.Order.awaits`

## Main results

* `Call.run_ask_bind`, `Call.run_store_bind` — the first question of a call
-/

namespace Popularity

namespace Call

variable {α : Type}

/-! ### First questions -/

theorem run_ask_bind (q : Query) (f : q.Answer → Call α) :
    (ask q >>= f).run = .ask q fun a => (f a).run := rfl

theorem run_store_bind (r : Request) (f : r.Answer → Call α) :
    (store r >>= f).run = .ask (.store r) fun
      | .ok a => (f a).run
      | .error why => .done (.error (.store why)) := by
  change Dialogue.ask _ _ = Dialogue.ask _ _
  congr 1
  funext a
  cases a <;> rfl

end Call

namespace Service

/-! ### Orders and answers -/

/-- What can be asked of the service. -/
inductive Order where
  | record (w : Write)
  /-- One read for each kind and the id at its place. -/
  | recordZipped (kinds : List String) (ids : List Int64)
  | counts (i : Item)
  | summary (i : Item) (user : Int64)
  | marked (m : Mark) (i : Item) (user : Int64)
  | listed (kind : String) (ids : List Int64)
  | byId (kind : String) (ids : List Int64)
  deriving DecidableEq, Repr, Inhabited

/-- What the service answers to an order. -/
inductive Answer where
  | recorded
  | summary (s : Summary)
  | marked (b : Bool)
  | listed (ss : List Summary)
  | byId (t : Table Int64 Summary)
  deriving DecidableEq, Repr, Inhabited

namespace Order

/-- The call that an order stands for. -/
def call : Order → Call Answer
  | .record w => (fun _ => .recorded) <$> perform w
  | .recordZipped kinds ids => (fun _ => .recorded) <$> readZipped kinds ids
  | .counts i => .summary <$> publicSummary i
  | .summary i user => .summary <$> Service.summary i user
  | .marked m i user => .marked <$> Service.marked m i user
  | .listed kind ids => .listed <$> Service.listed kind ids
  | .byId kind ids => .byId <$> Service.byId kind ids

/-- Whether an order is for the counts of an item, which the cache may hold. -/
def LooksUp (i : Item) (o : Order) : Prop := o = .counts i ∨ ∃ user, o = .summary i user

/-- Whether an order is for the counts of some item. -/
def looksUp : Order → Bool
  | .counts _ | .summary .. => true
  | _ => false

theorem looksUp_iff {o : Order} : o.looksUp = true ↔ ∃ i, o.LooksUp i := by
  cases o <;> simp [looksUp, LooksUp]

/-- What an order asks of the store, unless it asks the cache first. -/
def request? : Order → Option Request
  | .record w => if w = .readAll [] then none else some (.write w)
  | .recordZipped kinds ids =>
    match Item.zip? kinds ids with
    | some is => if is = [] then none else some (.write (.readAll is))
    | none => none
  | .marked m i user => some (.marked m i user)
  | .listed kind ids | .byId kind ids => some (.countsOf kind ids)
  | .counts _ | .summary .. => none

/-- Whether an order waits for the cache to follow: it is for a single read. -/
def awaits : Order → Bool
  | .record (.read _) => true
  | _ => false

end Order

end Service

end Popularity
