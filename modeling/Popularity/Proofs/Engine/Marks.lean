import Popularity.Proofs.Engine.Replies

/-!
# Marks that cannot be looked up

To find no mark and not to be able to look for one are different things. A call for a mark tells
them apart: it says that there is none only if the store says so, and any other failure of the store
is its own. A summary takes a mark that could not be looked up for one that is not there, but only
that mark: the two marks are looked up side by side, and neither the failure nor the delay of one of
them has a part in the other. Only without the counts there is no summary, and then the marks are
not looked up at all.

## Main definitions

* `Service.TellsApart` — to find nothing is not to fail
* `Site.look` — what comes of the lookup of a mark

## Main results

* `Service.tellsApart_found`
* `Site.play_marked`, `Site.play_summary`
* `Registry.look_look` — a lookup has no part in the next one
-/

namespace Popularity

/-! ### What was found -/

namespace Service

variable {x : Except StoreFailure Bool}

theorem found_eq_ok_true_iff : found x = .ok true ↔ x = .ok true := by
  unfold found
  split <;> simp_all

theorem found_eq_ok_false_iff : found x = .ok false ↔ x = .ok false ∨ x = .error .notFound := by
  unfold found
  split <;> simp_all

theorem found_eq_error_iff {f : CallFailure} :
    found x = .error f ↔ ∃ why, why ≠ .notFound ∧ x = .error why ∧ f = .store why := by
  unfold found
  split
  · simp
  · simp
  next why hwhy =>
    constructor
    · intro h
      cases h
      exact ⟨why, hwhy, rfl, rfl⟩
    · rintro ⟨why', -, heq, rfl⟩
      cases heq
      rfl

/-- Whether a result tells what was found from a failure to look for it: a mark is there or not as
the lookup says, or as it says that there is nothing to find, and any other failure is passed on. -/
def TellsApart (looked : Except StoreFailure Bool) (r : Except CallFailure Bool) : Prop :=
  (r = .ok true ↔ looked = .ok true) ∧
    (r = .ok false ↔ looked = .ok false ∨ looked = .error .notFound) ∧
    ∀ f, r = .error f ↔ ∃ why, why ≠ .notFound ∧ looked = .error why ∧ f = .store why

theorem tellsApart_found (x : Except StoreFailure Bool) : TellsApart x (found x) :=
  ⟨found_eq_ok_true_iff, found_eq_ok_false_iff, fun _ => found_eq_error_iff⟩

end Service

/-- Whether a question is about a mark. -/
def Call.Query.isForMark : Call.Query → Bool
  | .store (.marked ..) | .marks .. => true
  | _ => false

namespace Site

variable {S C : Type} {i : Item} {user : Int64}

/-! ### One mark -/

/-- What comes of the lookup of a mark: the answer of the store and the time that it takes, and what
becomes of the store and the troubles in its way. -/
def look (site : Site S) (m : Mark) (i : Item) (user : Int64)
    (l : S × List (String × StoreTrouble)) :
    (Except StoreFailure Bool × Nat) × S × List (String × StoreTrouble) :=
  let met := takeFirst (Request.marked m i user).method l.2
  let answered := site.respond met.1 (.marked m i user) l.1
  ((answered.1, StoreTrouble.time met.1), answered.2, met.2)

variable [CacheKind C]

/-- **A call for a mark** says what was found. -/
theorem play_marked (site : Site S) (m : Mark) (i : Item) (user : Int64) (s : Scene S C) :
    let looked := (site.look m i user (s.2.store, s.2.storeTroubles)).1
    ∃ s', (site.call (Service.marked m i user)).play s = (.ok (Service.found looked.1), s') ∧
      s'.1.now = s.1.now + looked.2 := by
  intro looked
  obtain ⟨s', hplay, hreached⟩ := site.play_request (.marked m i user) s
  have hreply : (site.reply (.store (.marked m i user))).play s = (.ok looked.1, s') := hplay
  refine ⟨s', ?_, hreached.now_eq⟩
  rw [call, Service.marked, Call.run_ask_bind, play_run_ask hreply]
  cases Service.found looked.1 <;> rfl

/-! ### Both marks -/

/-- A failure to look up a mark is noted, and taken for no mark. -/
theorem meets_markOr (within : List Span) (user : Int64) (what : String)
    (looked : Except StoreFailure Bool) :
    (Service.markOr within user what looked).run.Meets (fun q => q.isAside = true)
      (fun _ _ => True) (· = .ok (decide (looked = .ok true))) := by
  unfold Service.markOr
  rcases looked with why | b
  · cases why with
    | notFound => rfl
    | _ => exact ⟨rfl, fun _ _ => rfl⟩
  · cases b <;> rfl

/-- The work on a summary, for those who read the log. -/
def summarySpan (i : Item) (user : Int64) : List Span :=
  [Service.span .service "get" i [("uid", user)]]

/-- What is left of a summary when the counts are known. -/
def flagged (i : Item) (user : Int64) (n : Counts) : Call Summary := do
  let (liked, collected) ← Call.ask (.marks i user)
  let liked ← Service.markOr (summarySpan i user) user "like state" liked
  let collected ← Service.markOr (summarySpan i user) user "collection state" collected
  return ⟨i, n, liked, collected⟩

theorem summary_eq (i : Item) (user : Int64) :
    Service.summary i user = Service.counts i (summarySpan i user) >>= flagged i user := rfl

/-- Nothing is asked once the marks were looked up, and each is in force just if its lookup says
so. -/
theorem exists_run_flagged (i : Item) (user : Int64) (n : Counts) : ∃ next,
    (flagged i user n).run = .ask (.marks i user) next ∧
      ∀ looked : Except StoreFailure Bool × Except StoreFailure Bool,
        (next looked).Meets (fun q => q.isAside = true) (fun _ _ => True) (· = .ok
          ⟨i, n, decide (looked.1 = .ok true), decide (looked.2 = .ok true)⟩) := by
  refine ⟨_, by rw [flagged, Call.run_ask_bind], fun looked => ?_⟩
  refine Call.meets_bind.mpr ((meets_markOr _ _ _ _).mono ?_)
  rintro r rfl
  refine Call.meets_bind.mpr ((meets_markOr _ _ _ _).mono ?_)
  rintro r rfl
  rfl

/-- With the counts known, each mark is in force just if its lookup says so. Both lookups take no
longer than the longer one of them. -/
theorem play_flagged (site : Site S) (i : Item) (user : Int64) (n : Counts) (s : Scene S C) :
    let liked := site.look .like i user (s.2.store, s.2.storeTroubles)
    let collected := site.look .collection i user liked.2
    ∃ s', (site.call (flagged i user n)).play s = (.ok (.ok ⟨i, n,
        decide (liked.1.1 = .ok true), decide (collected.1.1 = .ok true)⟩), s') ∧
      s'.1.now = s.1.now + max liked.1.2 collected.1.2 := by
  intro liked collected
  obtain ⟨s₁, h₁, hreached⟩ := site.play_marks i user s
  have hreply : (site.reply (.marks i user)).play s = (.ok (liked.1.1, collected.1.1), s₁) := h₁
  obtain ⟨next, hrun, haside⟩ := exists_run_flagged i user n
  obtain ⟨rs, h₂⟩ := site.play_aside (haside (liked.1.1, collected.1.1)) s₁
  refine ⟨_, Eq.trans ?_ h₂, hreached.now_eq⟩
  rw [call, hrun, play_run_ask hreply]

/-- **A summary** needs the counts, and without them looks no further. With them, each mark is in
force just if its lookup says so, and both lookups take no longer than the longer one of them. -/
theorem play_summary (site : Site S) (i : Item) (user : Int64) (s : Scene S C) :
    match (site.call (Service.counts i (summarySpan i user))).play s with
    | (.ok (.ok n), s₁) =>
      let liked := site.look .like i user (s₁.2.store, s₁.2.storeTroubles)
      let collected := site.look .collection i user liked.2
      ∃ s', (site.call (Service.summary i user)).play s = (.ok (.ok ⟨i, n,
          decide (liked.1.1 = .ok true), decide (collected.1.1 = .ok true)⟩), s') ∧
        s'.1.now = s₁.1.now + max liked.1.2 collected.1.2
    | (.ok (.error why), s₁) =>
      (site.call (Service.summary i user)).play s = (.ok (.error why), s₁)
    | (.error crash, s₁) => (site.call (Service.summary i user)).play s = (.error crash, s₁) := by
  rw [summary_eq, play_call_bind]
  rcases (site.call (Service.counts i (summarySpan i user))).play s with ⟨crash | why | n, s₁⟩
  · rfl
  · rfl
  · exact site.play_flagged i user n s₁

/-- The counts are got without a look at any mark. -/
theorem meets_counts (i : Item) (within : List Span) :
    (Service.counts i within).run.Meets (fun q => q.isForMark = false) (fun _ _ => True)
      (fun _ => True) := by
  have hfetch : (Service.fetch i).run.Meets (fun q => q.isForMark = false) (fun _ _ => True)
      (fun _ => True) := by
    refine ⟨rfl, fun x _ => ?_⟩
    rcases x with why | _ | n
    · trivial
    · trivial
    · exact ⟨rfl, fun _ _ => trivial⟩
  refine ⟨rfl, fun x _ => ?_⟩
  rcases x with why | _ | n
  · exact ⟨rfl, fun _ _ => ⟨rfl, fun _ _ => hfetch⟩⟩
  · exact ⟨rfl, fun _ _ => hfetch⟩
  · exact ⟨rfl, fun _ _ => trivial⟩

end Site

/-! ### Marks side by side -/

theorem takeFirst_takeFirst {α : Type} {a b : String} (h : a ≠ b) (l : List (String × α)) :
    (takeFirst b (takeFirst a l).2).1 = (takeFirst b l).1 := by
  induction l with
  | nil => rfl
  | cons r l ih =>
    obtain ⟨n, x⟩ := r
    simp only [takeFirst]
    by_cases ha : n = a
    · rw [if_pos ha, if_neg fun hb => h (ha.symm.trans hb)]
    · rw [if_neg ha]
      by_cases hb : n = b
      · simp only [takeFirst, if_pos hb]
      · simp only [takeFirst, if_neg hb, ih]

theorem method_marked_ne {m m' : Mark} (h : m ≠ m') (i : Item) (user : Int64) :
    (Request.marked m i user).method ≠ (Request.marked m' i user).method := by
  cases m <;> cases m' <;> simp_all [Request.method]

/-- **A lookup has no part in the next one**, if the store keeps its promises. -/
theorem Registry.look_look {S : Type} (site : Registry S) {m m' : Mark} (h : m ≠ m') (i : Item)
    (user : Int64) (l : S × List (String × StoreTrouble)) :
    (site.look m' i user (site.look m i user l).2).1 = (site.look m' i user l).1 := by
  have htrouble := takeFirst_takeFirst (method_marked_ne h i user) l.2
  have hstore : (site.look m i user l).2.1 = l.1 := Site.respond_lookup site _ _ (by simp)
  unfold Site.look at hstore ⊢
  dsimp only at hstore ⊢
  rw [hstore, htrouble]

end Popularity
