import Popularity.Proofs.Database.Accounts
import Popularity.Proofs.Traffic.Phantoms

/-!
# Rows of the database last

No statement takes a row away, and neither does a request that fails on the way, whatever the reason
is. A lookup compares the item that it is given, so what it says of a row is what the tables hold.
A write makes the row of every item that the tables hold under its own kind.

For other items it does not: an item whose kind is too long by blanks is read, and the read is
counted for another item. So a lookup misses it, although it was read before.

## Main definitions

* `Server.AtRest` — a server between two requests

## Main results

* `Server.lasting`
* `Server.exists_missed_ragged` — an item that was read and is missed
-/

namespace Popularity

/-! ### Statements -/

namespace Statement

variable {s : Statement} {t t' : Tables} {i j : Item} {now : Nat} {k : Counter} {by_ : Int64}

theorem isSome_row_putCounts {row : Stamped Counts} (h : (t.row i).isSome ∨ i = j) :
    ((t.putCounts j row).row i).isSome := by
  unfold Tables.row Tables.putCounts
  rw [Table.get?_put]
  by_cases hij : i = j
  · rw [if_pos (by simpa using hij)]
    rfl
  · rw [if_neg (by simpa using hij)]
    exact h.resolve_right hij

/-- What is added to an item makes a row, though perhaps not the item's. -/
theorem exists_of_execAdd (h : execAdd now i k by_ t = .ok t') :
    ∃ j row, fitItem i = .ok j ∧ t' = t.putCounts j row := by
  unfold execAdd at h
  obtain ⟨j, hfit, hput⟩ := exists_of_bind_eq_ok h
  cases hrow : t.counts.get? j with
  | none =>
    rw [hrow] at hput
    cases hput
    exact ⟨j, _, hfit, rfl⟩
  | some row =>
    rw [hrow] at hput
    obtain ⟨n, -, hput⟩ := exists_of_bind_eq_ok hput
    cases hput
    exact ⟨j, _, hfit, rfl⟩

theorem exists_of_execSubtract {b : Bool} (h : execSubtract now i k t = .ok (b, t')) :
    b = false ∧ t' = t ∨ b = true ∧ ∃ row, t' = t.putCounts i row := by
  unfold execSubtract at h
  cases hrow : t.counts.get? i with
  | none =>
    rw [hrow] at h
    cases h
    exact .inl ⟨rfl, rfl⟩
  | some row =>
    rw [hrow] at h
    obtain ⟨n, -, h⟩ := exists_of_bind_eq_ok h
    cases h
    exact .inr ⟨rfl, _, rfl⟩

theorem counts_execMark {m : Mark} {user folder : Int64} {b : Bool}
    (h : execMark now m i user folder t = .ok (b, t')) : t'.counts = t.counts := by
  unfold execMark at h
  obtain ⟨j, -, hput⟩ := exists_of_bind_eq_ok h
  dsimp only at hput
  split at hput
  · cases hput
    exact Tables.counts_putMark
  · split at hput <;> cases hput
    · rfl
    · exact Tables.counts_putMark

theorem counts_execUnmark {m : Mark} {user : Int64} :
    (execUnmark now m i user t).2.counts = t.counts := by
  unfold execUnmark
  split
  · rfl
  · exact Tables.counts_putMark

/-- **No statement takes a row away.** -/
theorem isSome_row_effect {a : s.Answer} (h : s.effect now t = .ok (a, t'))
    (hrow : (t.row i).isSome) : (t'.row i).isSome := by
  have hsame (heq : t'.counts = t.counts) : (t'.row i).isSome := by
    rw [Tables.row, heq]
    exact hrow
  cases s with
  | add j k by_ =>
    rw [effect, map_eq_pure_bind] at h
    obtain ⟨t₁, hadd, h⟩ := exists_of_bind_eq_ok h
    cases h
    obtain ⟨j', row, -, rfl⟩ := exists_of_execAdd hadd
    exact isSome_row_putCounts (.inl hrow)
  | subtract j k =>
    obtain ⟨-, rfl⟩ | ⟨-, row, rfl⟩ := exists_of_execSubtract h
    · exact hrow
    · exact isSome_row_putCounts (.inl hrow)
  | mark m j user folder => exact hsame (counts_execMark h)
  | unmark m j user =>
    have hexec : execUnmark now m j user t = (a, t') := Except.ok.inj h
    refine hsame ?_
    rw [show t' = (execUnmark now m j user t).2 from (congrArg Prod.snd hexec).symm]
    exact counts_execUnmark
  | selectCounts | selectCountsOf | selectMark | begin_ | commit | ping | createLog | selectLog
  | insertLog | updateLog | createTables =>
    cases h
    exact hrow

/-- What is added to an item that is held under its own kind makes its row. -/
theorem isSome_row_add {u : Unit} (hi : i.Exact) (h : (add i k by_).effect now t = .ok (u, t')) :
    (t'.row i).isSome := by
  rw [effect, map_eq_pure_bind] at h
  obtain ⟨t₁, hadd, h⟩ := exists_of_bind_eq_ok h
  cases h
  obtain ⟨j, row, hfit, rfl⟩ := exists_of_execAdd hadd
  obtain rfl := hi.eq_of_fitItem hfit
  exact isSome_row_putCounts (.inr rfl)

end Statement

/-! ### Scripts -/

namespace Script

variable {α : Type} {t t' : Tables} {i : Item} {now : Nat}

theorem isSome_row_onTables {d : Dialogue Statement Statement.Answer α} {a : α}
    (h : onTables now d t = some (a, t')) (hrow : (t.row i).isSome) : (t'.row i).isSome := by
  induction d generalizing t with
  | done a =>
    cases h
    exact hrow
  | ask s next ih =>
    obtain ⟨b, t₁, heffect, hnext⟩ := onTables_ask_eq_some h
    exact ih b hnext (Statement.isSome_row_effect heffect hrow)

/-- Reads that are put together make the rows of all their items. -/
theorem isSome_row_addAll {l : List (Item × Int64)} {u : Unit}
    (h : onTables now (l.forM fun r => send (.add r.1 .reads r.2)).run t = some (.ok u, t'))
    {r : Item × Int64} (hr : r ∈ l) (hexact : r.1.Exact) : (t'.row r.1).isSome := by
  induction l generalizing t with
  | nil => cases hr
  | cons r' l ih =>
    obtain ⟨u', t₁, hadd, hnext⟩ := onTables_ask_eq_some h
    obtain rfl | hr := List.mem_cons.mp hr
    · exact isSome_row_onTables hnext (Statement.isSome_row_add hexact hadd)
    · exact ih hnext hr

/-- **A write that changes something makes the rows that were missing.** -/
theorem isSome_row_ofWrite {w : Write} (h : onTables now (ofWrite w).run t = some (.ok true, t'))
    {a : Adjustment} (ha : a ∈ w.adjustments) (hexact : a.item.Exact) :
    (t'.row a.item).isSome := by
  cases w with
  | read i =>
    obtain rfl := List.mem_singleton.mp ha
    obtain ⟨u, t₁, hadd, hnext⟩ := onTables_ask_eq_some h
    cases hnext
    exact Statement.isSome_row_add hexact hadd
  | readAll is =>
    obtain ⟨i, hi, rfl⟩ := List.mem_map.mp ha
    cases is with
    | nil => cases hi
    | cons i₀ is =>
      change onTables now (transaction (addReads (i₀ :: is)) >>= fun _ => pure true).run t = _ at h
      rw [ExceptT.run_bind, onTables_bind, onTables_transaction] at h
      obtain ⟨r, hr, hri⟩ := exists_mem_merged hi
      rcases hadd : onTables now (addReads (i₀ :: is)).run t with _ | ⟨_ | u, t₁⟩ <;> rw [hadd] at h
      · cases h
      · cases h
      · cases h
        exact hri ▸ isSome_row_addAll hadd hr (hri ▸ hexact)
  | like i user | collect i user folder =>
    obtain rfl := List.mem_singleton.mp ha
    obtain ⟨t₁, -, ⟨hfalse, -⟩ | ⟨-, u, hadd⟩⟩ := exists_execMark h
    · cases hfalse
    · exact Statement.isSome_row_add hexact hadd
  | unlike i user | uncollect i user folder =>
    obtain rfl := List.mem_singleton.mp ha
    obtain ⟨t₁, -, ⟨hfalse, -⟩ | ⟨-, hsubtract⟩⟩ := exists_execUnmark h
    · cases hfalse
    · obtain ⟨hfalse, -⟩ | ⟨-, row, rfl⟩ := Statement.exists_of_execSubtract hsubtract
      · cases hfalse
      · exact Statement.isSome_row_putCounts (.inr rfl)

/-- All requests are done as a whole or not at all. -/
theorem whole_ofRequest (r : Request) : Whole (ofRequest r) := by
  cases r with
  | write w => exact whole_ofWrite w
  | counts i => exact (whole_send rfl).map _
  | countsOf kind ids =>
    rw [ofRequest, countsOf]
    split
    · exact (whole_pure _).map _
    · exact (whole_send rfl).map _
  | marked m i user => exact (whole_send rfl).map _

end Script

/-! ### Servers -/

namespace Server

/-- A server between two requests: it has its tables, and no transaction is open. -/
structure Rested (v : Server) : Prop where
  draft : v.draft = none
  tables : v.tables.isSome

theorem Rested.serve {v : Server} (h : v.Rested) (r : Request) :
    (v.serve (.ofRequest r)).2.Rested := by
  obtain ⟨t, ht⟩ := Option.isSome_iff_exists.mp h.tables
  obtain ⟨why, faults, issued, hserve⟩ | ⟨a, tables, faults, issued, hserve, hok⟩ :=
    serve_cases (Script.whole_ofRequest r) v
  · rw [hserve]
    exact ⟨rfl, h.tables⟩
  · obtain ⟨t', rfl, -⟩ := hok h.draft t ht
    rw [hserve]
    exact ⟨rfl, rfl⟩

/-- Servers between two requests. -/
abbrev AtRest : Type := { v : Server // v.Rested }

/-- They are the same store as all servers are. -/
def AtRest.site : Site AtRest where
  answer r v := ((Server.site.answer r v.1).1, ⟨(Server.site.answer r v.1).2, v.2.serve r⟩)
  remote := Server.site.remote

/-- The counts of an item in the committed tables. -/
def AtRest.row (v : AtRest) (i : Item) : Option Counts := v.1.tables.bind (·.row i)

theorem AtRest.row_eq {v : AtRest} {t : Tables} (h : v.1.tables = some t) (i : Item) :
    v.row i = t.row i := by
  rw [row, h]
  rfl

/-- What comes of a request. -/
theorem AtRest.answer_cases (r : Request) (v : AtRest) :
    ∃ t t', v.1.tables = some t ∧ (AtRest.site.answer r v).2.1.tables = some t' ∧
      ((∃ why, (AtRest.site.answer r v).1 = .error why ∧ t' = t) ∨
        ∃ a, (AtRest.site.answer r v).1 = .ok a ∧
          Script.onTables (v.1.clock + 1) (Script.ofRequest r).run t = some (.ok a, t')) := by
  obtain ⟨t, ht⟩ := Option.isSome_iff_exists.mp v.2.tables
  obtain ⟨why, faults, issued, hserve⟩ | ⟨a, tables, faults, issued, hserve, hok⟩ :=
    serve_cases (Script.whole_ofRequest r) v.1
  · exact ⟨t, t, ht, (congrArg (·.2.tables) hserve).trans ht,
      .inl ⟨why, congrArg Prod.fst hserve, rfl⟩⟩
  · obtain ⟨t', rfl, htables⟩ := hok v.2.draft t ht
    exact ⟨t, t', ht, congrArg (·.2.tables) hserve,
      .inr ⟨a, congrArg Prod.fst hserve, htables⟩⟩

/-- A lookup leaves the tables as they are. -/
theorem Rested.tables_answer {v : Server} (h : v.Rested) {r : Request} (hr : ∀ w, r ≠ .write w) :
    (site.answer r v).2.tables = v.tables := by
  obtain ⟨t, t', ht, ht', ⟨-, -, rfl⟩ | ⟨a, -, htables⟩⟩ := AtRest.answer_cases r ⟨v, h⟩
  · exact ht'.trans ht.symm
  · refine ht'.trans (Eq.trans (congrArg some ?_) ht.symm)
    cases r with
    | write w => exact absurd rfl (hr w)
    | counts i =>
      obtain ⟨b, t₁, hexec, hdone⟩ := Script.onTables_ask_eq_some htables
      cases hexec
      cases hdone
      rfl
    | marked m i user =>
      obtain ⟨b, t₁, hexec, hdone⟩ := Script.onTables_ask_eq_some htables
      cases hexec
      cases hdone
      rfl
    | countsOf kind ids =>
      cases ids with
      | nil => cases htables; rfl
      | cons id ids =>
        obtain ⟨b, t₁, hexec, hdone⟩ := Script.onTables_ask_eq_some htables
        cases hexec
        cases hdone
        rfl

/-- **Rows of the database last**, and writes make the rows of the items that are held under their
own kinds. -/
theorem lasting : AtRest.site.Lasting AtRest.row Item.Exact where
  tells i v n h := by
    obtain ⟨t, t', ht, -, ⟨why, herror, -⟩ | ⟨a, hok, htables⟩⟩ := AtRest.answer_cases (.counts i) v
    · rw [h] at herror
      cases herror
    · obtain rfl : n = a := Except.ok.inj (h.symm.trans hok)
      obtain ⟨b, t₁, heffect, hnext⟩ := Script.onTables_ask_eq_some htables
      cases heffect
      cases hnext
      exact AtRest.row_eq ht i
  lasts r v i h := by
    obtain ⟨t, t', ht, ht', hcases⟩ := AtRest.answer_cases r v
    rw [AtRest.row_eq ht] at h
    rw [AtRest.row_eq ht']
    obtain ⟨why, -, rfl⟩ | ⟨a, -, htables⟩ := hcases
    · exact h
    · exact Script.isSome_row_onTables htables h
  makes w v h a ha hexact := by
    obtain ⟨t, t', -, ht', ⟨why, herror, -⟩ | ⟨b, hok, htables⟩⟩ := AtRest.answer_cases (.write w) v
    · rw [h] at herror
      cases herror
    · obtain rfl : true = b := Except.ok.inj (h.symm.trans hok)
      rw [AtRest.row_eq ht']
      exact Script.isSome_row_ofWrite htables ha hexact

/-! ### An item that is missed -/

/-- A server with empty tables. -/
def vacant : AtRest := ⟨{}, rfl, rfl⟩

theorem ok_of_toOption {ε α : Type} {x : Except ε α} {a : α} (h : x.toOption = some a) :
    x = .ok a := by
  cases x with
  | error why => cases h
  | ok b => exact congrArg Except.ok (Option.some.inj h)

/-- The read is counted, but for an item without the blank. -/
theorem read_ragged : (AtRest.site.answer (.write (.read ragged)) vacant).1 = .ok true ∧
    (AtRest.site.answer (.counts ragged) (AtRest.site.answer (.write (.read ragged)) vacant).2).1
      = .ok none :=
  ⟨ok_of_toOption (by decide +kernel), ok_of_toOption (by decide +kernel)⟩

end Server

open Traffic in
/-- If a read is counted, and the row is not found then, a lookup that begins after the read misses
the item. -/
theorem Traffic.exists_missed {S : Type} {site : Site S} {i : Item} {l : S} (limit : Nat)
    (opt : Cache.Options) (hread : (site.answer (.write (.read i)) l).1 = .ok true)
    (hfind : (site.answer (.counts i) (site.answer (.write (.read i)) l).2).1 = .ok none) :
    ∃ (s₁ s : Traffic S) (v : Visit), Run site (Traffic.opening limit l opt) s₁ ∧
      (0, .recorded 0 (.read i)) ∈ s₁.history ∧ s₁.calls.get? 1 = none ∧ Run site s₁ s ∧
      s.calls.get? 1 = some v ∧ v.order = .counts i ∧
      v.rest = some (.done (.error (.uncounted i))) := by
  have at_ {s₀ s : Traffic S} (_ : Run site s₀ s) : Run site s s := .refl
  have h₁ := (Relation.ReflTransGen.refl (a := Traffic.opening limit l opt) (r := Step site)).tail
    (.enter _ 0 (.record (.read i)) rfl)
  have h₂ := h₁.tail (.hear (c := 0) rfl rfl (.answered (Prod.ext hread rfl)))
  have r₁ := (at_ h₂).tail (.enter _ 1 (.counts i) rfl)
  have r₂ := r₁.tail (.hear (c := 1) rfl rfl (.cached i))
  have r₃ := r₂.tail (.hear (c := 1) rfl rfl (.reported _))
  have r₄ := r₃.tail (.hear (c := 1) rfl rfl (.answered (Prod.ext hfind rfl)))
  exact ⟨_, _, _, h₂, .head _, rfl, r₄, rfl, rfl, rfl⟩

/-- **An item that was read and is missed.** A read of an article whose kind is too long by a blank
has succeeded, and a lookup that begins afterwards is told that the article has no counts. -/
theorem Server.exists_missed_ragged : ∃ (s₁ s : Traffic AtRest) (v : Visit),
    Traffic.Run AtRest.site (Traffic.opening 500 vacant {}) s₁ ∧
      (0, .recorded 0 (.read ragged)) ∈ s₁.history ∧ s₁.calls.get? 1 = none ∧
      Traffic.Run AtRest.site s₁ s ∧ s.calls.get? 1 = some v ∧ v.order = .counts ragged ∧
      v.rest = some (.done (.error (.uncounted ragged))) :=
  Traffic.exists_missed 500 {} read_ragged.1 read_ragged.2

end Popularity
