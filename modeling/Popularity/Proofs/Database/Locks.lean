import Popularity.Proofs.Database.Accounts
import Popularity.Proofs.Database.Atomicity
import Popularity.Proofs.ItemOrder
import Mathlib.Logic.Relation

/-!
# Calls that wait for each other's rows

A statement that puts or changes a row locks it, and the row stays locked until the transaction
ends. Two transactions might so wait for each other for ever. They do not if all of them lock rows
in one order, and they do: a mark is locked before any counts, and the counts of a list of reads
are locked in the order of their items, whatever order the list came in.

This needs that an item is counted in its own row. Where the database drops blanks from a kind, the
list is in the order of the kinds that were given, and the rows are in another.

## Main definitions

* `Dialogue.Partway` — how far a dialogue has come
* `Lock`, `Statement.lock?` — the row that a statement locks, and `Lock.Below`, the order of rows
* `Script.Orderly` — a script that locks rows upwards
* `Stop`, `Stop.WaitsFor` — a write between two statements, and another that is in its way

## Main results

* `Statement.same_of_exec` — a statement leaves all rows alone but the one that it locks
* `Script.partway_readAll` — the statements of a list of reads
* `Script.orderly_ofWrite` — all writes lock rows upwards
* `Stop.upward_waits` — writes never wait for each other in a circle
-/

namespace Popularity

/-! ### Dialogues under way -/

namespace Dialogue

variable {Q : Type} {A : Q → Type} {α : Type}

/-- What a dialogue may have asked so far, and what is left of it then. -/
inductive Partway : Dialogue Q A α → List Q → Dialogue Q A α → Prop
  | here (d : Dialogue Q A α) : Partway d [] d
  | on {q : Q} {next : A q → Dialogue Q A α} {asked : List Q} {rest : Dialogue Q A α} (a : A q)
    (h : Partway (next a) asked rest) : Partway (.ask q next) (q :: asked) rest

theorem partway_done {a b : α} {asked : List Q} :
    (done a : Dialogue Q A α).Partway asked (.done b) ↔ asked = [] ∧ b = a := by
  constructor
  · rintro ⟨⟩
    exact ⟨rfl, rfl⟩
  · rintro ⟨rfl, rfl⟩
    exact .here _

theorem partway_ask {q : Q} {next : A q → Dialogue Q A α} {asked : List Q} {b : α} :
    (ask q next).Partway asked (.done b) ↔
      ∃ a asked', asked = q :: asked' ∧ (next a).Partway asked' (.done b) := by
  constructor
  · rintro (_ | ⟨a, h⟩)
    exact ⟨a, _, rfl, h⟩
  · rintro ⟨a, asked', rfl, h⟩
    exact .on a h

end Dialogue

/-! ### Rows -/

/-- A row that can be locked. -/
inductive Lock where
  | mark (m : Mark) (key : Item × Int64)
  | counts (i : Item)
  deriving DecidableEq, Repr

namespace Lock

variable {k l : Lock} {t t' : Tables}

/-- Marks come first, in no order among themselves; then come the counts in the order of items. -/
def Below : Lock → Lock → Prop
  | .mark .., .counts _ => True
  | .counts i, .counts j => i.Below j
  | _, .mark .. => False

theorem Below.irrefl : ∀ {l : Lock}, ¬ l.Below l
  | .mark .., h => h
  | .counts i, h => Item.Below.irrefl i h

theorem Below.trans : ∀ {j k l : Lock}, j.Below k → k.Below l → j.Below l
  | .mark .., .counts _, .counts _, _, _ => trivial
  | .counts _, .counts _, .counts _, h, h' => Item.Below.trans h h'

/-- Whether a row is the same in two tables. -/
def Same (l : Lock) (t t' : Tables) : Prop :=
  match l with
  | .mark m key => (t'.marks m).get? key = (t.marks m).get? key
  | .counts i => t'.counts.get? i = t.counts.get? i

theorem same_refl (l : Lock) (t : Tables) : l.Same t t := by
  cases l <;> rfl

theorem same_putCounts {i : Item} {row : Stamped Counts} (h : l ≠ .counts i) :
    l.Same t (t.putCounts i row) := by
  cases l with
  | mark m key => exact congrArg (·.get? key) Tables.marks_putCounts
  | counts j =>
    have hj : j ≠ i := fun heq => h (congrArg Lock.counts heq)
    simp [Same, Tables.putCounts, Table.get?_put, hj]

theorem same_putMark {m : Mark} {key : Item × Int64} {row : Stamped Placed}
    (h : l ≠ .mark m key) : l.Same t (t.putMark m key row) := by
  cases l with
  | counts j => exact congrArg (·.get? j) Tables.counts_putMark
  | mark n key' =>
    rw [Same, Tables.marks_putMark]
    split
    next hn =>
      subst hn
      have hkey : key' ≠ key := fun heq => h (congrArg (Lock.mark n) heq)
      simp [Table.get?_put, hkey]
    next => rfl

end Lock

namespace Statement

variable {s : Statement} {now : Nat} {t t' : Tables} {l : Lock}

/-- The row that a statement locks. What is put goes under the kind that the table can hold; what is
looked for is looked for under the kind that is given. -/
def lock? : Statement → Option Lock
  | .add i .. => (fitItem i).toOption.map .counts
  | .subtract i _ => some (.counts i)
  | .mark m i user _ => (fitItem i).toOption.map fun i => .mark m (i, user)
  | .unmark m i user => some (.mark m (i, user))
  | _ => none

/-- What the table can hold of an item has one place in it. -/
theorem map_toOption_fitItem_eq_some {i : Item} {f : Item → Lock} :
    (fitItem i).toOption.map f = some l ↔ ∃ j, fitItem i = .ok j ∧ l = f j := by
  cases fitItem i with
  | error why => exact ⟨nofun, fun ⟨_, h, _⟩ => nomatch h⟩
  | ok j => simp [Except.toOption, eq_comm]

theorem lock?_add {i : Item} {k : Counter} {n : Int64} :
    (add i k n).lock? = some l ↔ ∃ j, fitItem i = .ok j ∧ l = .counts j :=
  map_toOption_fitItem_eq_some

theorem lock?_mark {m : Mark} {i : Item} {user folder : Int64} :
    (mark m i user folder).lock? = some l ↔ ∃ j, fitItem i = .ok j ∧ l = .mark m (j, user) :=
  map_toOption_fitItem_eq_some

theorem same_execAdd {i : Item} {k : Counter} {n : Int64} (h : execAdd now i k n t = .ok t')
    (hl : (add i k n).lock? ≠ some l) : l.Same t t' := by
  unfold execAdd at h
  obtain ⟨j, hfit, hput⟩ := exists_of_bind_eq_ok h
  have hj : l ≠ .counts j := fun heq => hl (lock?_add.mpr ⟨j, hfit, heq⟩)
  cases hrow : t.counts.get? j with
  | none =>
    rw [hrow] at hput
    cases hput
    exact Lock.same_putCounts hj
  | some row =>
    rw [hrow] at hput
    obtain ⟨n', -, hput⟩ := exists_of_bind_eq_ok hput
    cases hput
    exact Lock.same_putCounts hj

theorem same_execSubtract {i : Item} {k : Counter} {b : Bool}
    (h : execSubtract now i k t = .ok (b, t')) (hl : l ≠ .counts i) : l.Same t t' := by
  unfold execSubtract at h
  cases hrow : t.counts.get? i with
  | none =>
    rw [hrow] at h
    cases h
    exact Lock.same_refl l t
  | some row =>
    rw [hrow] at h
    obtain ⟨n', -, hput⟩ := exists_of_bind_eq_ok h
    cases hput
    exact Lock.same_putCounts hl

theorem same_execMark {m : Mark} {i : Item} {user folder : Int64} {b : Bool}
    (h : execMark now m i user folder t = .ok (b, t'))
    (hl : (mark m i user folder).lock? ≠ some l) : l.Same t t' := by
  unfold execMark at h
  obtain ⟨j, hfit, hput⟩ := exists_of_bind_eq_ok h
  have hj : l ≠ .mark m (j, user) := fun heq => hl (lock?_mark.mpr ⟨j, hfit, heq⟩)
  dsimp only at hput
  cases hrow : (t.marks m).get? (j, user) with
  | none =>
    rw [hrow] at hput
    cases hput
    exact Lock.same_putMark hj
  | some row =>
    rw [hrow] at hput
    dsimp only at hput
    split at hput
    next =>
      cases hput
      exact Lock.same_refl l t
    next =>
      cases hput
      exact Lock.same_putMark hj

theorem same_execUnmark {m : Mark} {i : Item} {user : Int64} (hl : l ≠ .mark m (i, user)) :
    l.Same t (execUnmark now m i user t).2 := by
  unfold execUnmark
  cases t.active? m (i, user) with
  | none => exact Lock.same_refl l t
  | some row => exact Lock.same_putMark hl

/-- **A statement leaves all rows alone but the one that it locks.** -/
theorem same_of_exec {a : s.Answer} (h : s.exec now t = .ok (a, t')) (hl : s.lock? ≠ some l) :
    l.Same t t' := by
  unfold exec at h
  split at h
  · cases h
  cases s with
  | add i k n =>
    rw [effect, map_eq_pure_bind] at h
    obtain ⟨t₁, hadd, h⟩ := exists_of_bind_eq_ok h
    cases h
    exact same_execAdd hadd hl
  | subtract i k => exact same_execSubtract h fun heq => hl (congrArg some heq.symm)
  | mark m i user folder => exact same_execMark h hl
  | unmark m i user =>
    have hrun : execUnmark now m i user t = (a, t') := Except.ok.inj h
    have hsame : l.Same t (execUnmark now m i user t).2 :=
      same_execUnmark fun heq => hl (congrArg some heq.symm)
    rwa [hrun] at hsame
  | _ =>
    cases h
    exact Lock.same_refl l t

theorem fitItem_of_length_le {cs : List Char} (h : cs.length ≤ kindWidth) (id : Int64) :
    fitItem ⟨String.ofList cs, id⟩ = .ok ⟨String.ofList cs, id⟩ := by
  simp [fitItem, fit?, h]

/-- A blank too many is dropped. -/
theorem fitItem_append_blank {cs : List Char} (h : cs.length = kindWidth) (id : Int64) :
    fitItem ⟨String.ofList (cs ++ [' ']), id⟩ = .ok ⟨String.ofList cs, id⟩ := by
  simp [fitItem, fit?, h]

end Statement

theorem ofList_lt_append_blank (cs : List Char) :
    String.ofList cs < String.ofList (cs ++ [' ']) := by
  rw [String.lt_iff_toList_lt, String.toList_ofList, String.toList_ofList]
  have hlt : cs ++ [] < cs ++ [' '] := List.append_left_lt (List.nil_lt_cons _ _)
  rwa [List.append_nil] at hlt

/-! ### Scripts -/

namespace Script

variable {α : Type}

/-- Locks rows only above those that are held, whatever it is answered. -/
def Orderly : List Lock → Dialogue Statement Statement.Answer α → Prop
  | _, .done _ => True
  | held, .ask s next =>
    (∀ k ∈ held, ∀ l, s.lock? = some l → k.Below l) ∧
      ∀ a, Orderly (held ++ s.lock?.toList) (next a)

/-- The next row of an orderly script is above all rows that it has locked. -/
theorem Orderly.below_of_partway {held : List Lock}
    {d : Dialogue Statement Statement.Answer α} {said : List Statement} {s : Statement}
    {next : s.Answer → Dialogue Statement Statement.Answer α} (h : Orderly held d)
    (hway : d.Partway said (.ask s next)) {k l : Lock}
    (hk : k ∈ held ∨ ∃ q ∈ said, q.lock? = some k) (hl : s.lock? = some l) : k.Below l := by
  generalize hrest : Dialogue.ask s next = rest at hway
  induction hway generalizing held with
  | here d =>
    subst hrest
    rcases hk with hk | ⟨q, hq, -⟩
    · exact h.1 k hk l hl
    · cases hq
  | on a hway ih =>
    refine ih (h.2 a) ?_ hrest
    rcases hk with hk | ⟨q, hq, hqk⟩
    · exact .inl (List.mem_append_left _ hk)
    · rcases List.mem_cons.mp hq with rfl | hq
      · exact .inl (List.mem_append_right _ (by rw [hqk]; exact List.mem_cons_self))
      · exact .inr ⟨q, hq, hqk⟩

/-- Adds reads to items one after another. -/
def adding : List (Item × Int64) → Dialogue Statement Statement.Answer α →
    Dialogue Statement Statement.Answer α
  | [], d => d
  | r :: l, d => .ask (.add r.1 .reads r.2) fun _ => adding l d

theorem run_addAll (l : List (Item × Int64))
    (k : Except StoreFailure Unit → Dialogue Statement Statement.Answer α) :
    ((l.forM fun r => send (.add r.1 .reads r.2)).run >>= k) = adding l (k (.ok ())) := by
  induction l with
  | nil => rfl
  | cons r l ih =>
    rw [adding, ← ih]
    rfl

/-- A list of reads is one transaction of additions. -/
theorem run_readAll_eq_adding {is : List Item} (h : is ≠ []) :
    (ofWrite (.readAll is)).run
      = .ask .begin_ fun _ => adding (merged is) (.ask .commit fun _ => .done (.ok true)) := by
  obtain ⟨i, is, rfl⟩ := List.exists_cons_of_ne_nil h
  rw [run_readAll]
  exact congrArg _ (funext fun _ => run_addAll _ _)

theorem partway_adding {l : List (Item × Int64)} {d : Dialogue Statement Statement.Answer α}
    {said : List Statement} {a : α} :
    (adding l d).Partway said (.done a) ↔ ∃ last,
      said = l.map (fun r => .add r.1 .reads r.2) ++ last ∧ d.Partway last (.done a) := by
  induction l generalizing said with
  | nil => simp [adding]
  | cons r l ih =>
    rw [adding, Dialogue.partway_ask]
    constructor
    · rintro ⟨_, said, rfl, h⟩
      obtain ⟨last, rfl, hd⟩ := ih.mp h
      exact ⟨last, rfl, hd⟩
    · rintro ⟨last, rfl, hd⟩
      exact ⟨(), _, rfl, ih.mpr ⟨last, rfl, hd⟩⟩

/-- **The statements of a list of reads.** -/
theorem partway_readAll {is : List Item} {said : List Statement} {r : Except StoreFailure Bool} :
    (ofWrite (.readAll is)).run.Partway said (.done r) ↔
      said = (if is = [] then [] else
        .begin_ :: (merged is).map (fun r => .add r.1 .reads r.2) ++ [.commit]) ∧ r = .ok true := by
  by_cases his : is = []
  · subst his
    exact Dialogue.partway_done
  · rw [run_readAll_eq_adding his, if_neg his, Dialogue.partway_ask]
    constructor
    · rintro ⟨_, said, rfl, h⟩
      obtain ⟨last, rfl, hlast⟩ := partway_adding.mp h
      obtain ⟨_, rest, rfl, hend⟩ := Dialogue.partway_ask.mp hlast
      obtain ⟨rfl, rfl⟩ := Dialogue.partway_done.mp hend
      exact ⟨rfl, rfl⟩
    · rintro ⟨rfl, rfl⟩
      exact ⟨(), _, rfl, partway_adding.mpr ⟨_, rfl, .on () (.here _)⟩⟩

/-- The items of a list of reads go up. -/
theorem pairwise_merged (is : List Item) :
    ((merged is).map (·.1)).Pairwise Item.Below := by
  have hitems : (merged is).map (·.1) = is.eraseDups.mergeSort Item.before := by
    simp [merged, Function.comp_def]
  rw [hitems]
  exact Item.pairwise_below (nodup_eraseDups is)

/-- Two items in their order are counted in that order. -/
theorem merged_pair {i j : Item} (h : i.before j = true) (hne : i ≠ j) :
    merged [i, j] = [(i, 1), (j, 1)] := by
  have hdistinct : [i, j].eraseDups = [i, j] := by simp [List.eraseDups_cons, Ne.symm hne]
  have hsorted : [i, j].mergeSort Item.before = [i, j] :=
    List.mergeSort_of_pairwise (by simpa using h)
  rw [merged, hdistinct, hsorted]
  simp [hne, Ne.symm hne]

/-! ### The order of locks -/

theorem orderly_adding {held : List Lock} {l : List (Item × Int64)}
    {d : Dialogue Statement Statement.Answer α} (hexact : ∀ r ∈ l, r.1.Exact)
    (hl : (l.map (·.1)).Pairwise Item.Below)
    (hheld : ∀ k ∈ held, ∀ r ∈ l, k.Below (.counts r.1)) (hd : ∀ held, Orderly held d) :
    Orderly held (adding l d) := by
  induction l generalizing held with
  | nil => exact hd held
  | cons r l ih =>
    obtain ⟨hr, hl⟩ := List.pairwise_cons.mp hl
    have hlock : ∀ k, (Statement.add r.1 .reads r.2).lock? = some k → k = .counts r.1 := by
      intro k hk
      obtain ⟨j, hj, rfl⟩ := Statement.lock?_add.mp hk
      rw [(hexact r List.mem_cons_self).eq_of_fitItem hj]
    refine ⟨fun k hk k' hk' => ?_, fun _ => ih ?_ hl ?_⟩
    · rw [hlock k' hk']
      exact hheld k hk r List.mem_cons_self
    · exact fun r hr => hexact r (List.mem_cons_of_mem _ hr)
    · -- the row that is held now is below those that are to come
      intro k hk r' hr'
      rcases List.mem_append.mp hk with hk | hk
      · exact hheld k hk r' (List.mem_cons_of_mem _ hr')
      · rw [hlock k (Option.mem_toList.mp hk)]
        exact hr r'.1 (List.mem_map_of_mem hr')

/-- What follows and locks nothing is no matter. -/
theorem Orderly.bind {β : Type} {held : List Lock} {d : Dialogue Statement Statement.Answer α}
    {f : α → Dialogue Statement Statement.Answer β} (h : Orderly held d)
    (hf : ∀ a held, Orderly held (f a)) : Orderly held (d >>= f) := by
  change Orderly held (d.bind f)
  induction d generalizing held with
  | done a => exact hf a held
  | ask s next ih => exact ⟨h.1, fun a => ih a (h.2 a)⟩

theorem orderly_transaction {body : Script α} (h : Orderly [] body.run) :
    Orderly [] (transaction body).run := by
  rw [run_transaction]
  refine ⟨nofun, fun _ => h.bind fun r held => ?_⟩
  cases r with
  | error why => trivial
  | ok a => exact ⟨fun _ _ _ hlock => (nomatch hlock), fun _ => trivial⟩

/-- The row of a mark is locked before that of the counts. -/
theorem orderly_mark (m : Mark) (i : Item) (user folder : Int64) :
    Orderly [] (mark m i user folder).run := by
  refine orderly_transaction ⟨nofun, fun changed => ?_⟩
  cases changed with
  | false => trivial
  | true =>
    refine ⟨fun k hk l hl => ?_, fun _ => trivial⟩
    obtain ⟨j, -, rfl⟩ := Statement.lock?_mark.mp (Option.mem_toList.mp hk)
    obtain ⟨j', -, rfl⟩ := Statement.lock?_add.mp hl
    trivial

theorem orderly_unmark (m : Mark) (i : Item) (user : Int64) :
    Orderly [] (unmark m i user).run := by
  refine orderly_transaction ⟨nofun, fun changed => ?_⟩
  cases changed with
  | false => trivial
  | true =>
    refine ⟨fun k hk l hl => ?_, fun found => ?_⟩
    · cases hl
      obtain rfl := List.mem_singleton.mp hk
      trivial
    · cases found <;> trivial

/-- **All writes lock rows upwards.** -/
theorem orderly_ofWrite {w : Write} (hw : ∀ is, w = .readAll is → ∀ i ∈ is, i.Exact) :
    Orderly [] (ofWrite w).run := by
  cases w with
  | read i => exact ⟨nofun, fun _ => trivial⟩
  | readAll is =>
    by_cases his : is = []
    · subst his
      trivial
    · rw [run_readAll_eq_adding his]
      refine ⟨nofun, fun _ => orderly_adding ?_ (pairwise_merged is) nofun ?_⟩
      · exact fun r hr => hw is rfl r.1 (mem_merged hr)
      · exact fun held => ⟨fun _ _ _ hlock => (nomatch hlock), fun _ => trivial⟩
  | like i user => exact orderly_mark .like i user 0
  | unlike i user => exact orderly_unmark .like i user
  | collect i user folder => exact orderly_mark .collection i user folder
  | uncollect i user folder => exact orderly_unmark .collection i user

end Script

/-! ### Writes that wait -/

/-- A write that has come so far, and its next statement. -/
structure Stop where
  write : Write
  said : List Statement
  next : Statement
  rest : next.Answer → Dialogue Statement Statement.Answer (Except StoreFailure Bool)
  partway : (Script.ofWrite write).run.Partway said (.ask next rest)

namespace Stop

/-- The rows that its statements have locked. -/
def Holds (s : Stop) (l : Lock) : Prop := ∃ q ∈ s.said, q.lock? = some l

/-- Its next statement is about a row that the other one has locked. -/
def WaitsFor (s s' : Stop) : Prop := ∃ l, s.next.lock? = some l ∧ s'.Holds l

/-- The rows that writes wait for go up from each to the one that it waits for. -/
theorem exists_of_transGen {ι : Type} {stops : ι → Stop}
    (horderly : ∀ n, Script.Orderly [] (Script.ofWrite (stops n).write).run) {m n : ι}
    (h : Relation.TransGen (fun m n => (stops m).WaitsFor (stops n)) m n) :
    ∃ k l, (stops m).next.lock? = some k ∧ (stops n).Holds l ∧ (k = l ∨ k.Below l) := by
  induction h with
  | single h =>
    obtain ⟨l, hl, hholds⟩ := h
    exact ⟨l, l, hl, hholds, .inl rfl⟩
  | @tail p q _ h ih =>
    obtain ⟨k, l, hk, hl, hkl⟩ := ih
    obtain ⟨l', hl', hholds⟩ := h
    have hup : l.Below l' := (horderly p).below_of_partway (stops p).partway (.inr hl) hl'
    refine ⟨k, l', hk, hholds, .inr ?_⟩
    rcases hkl with rfl | hkl
    · exact hup
    · exact hkl.trans hup

/-- **Writes never wait for each other in a circle.** A list of reads is sent as one statement for
each of its items, in the order of items. Whatever writes are under way and wherever each of them
has stopped, none waits for itself by way of others, if the items in lists of reads are counted in
rows of their own. -/
theorem upward_waits {ι : Type} (stops : ι → Stop)
    (hexact : ∀ n is, (stops n).write = .readAll is → ∀ i ∈ is, i.Exact) :
    (∀ is : List Item, ∃ l : List (Item × Int64), (l.map (·.1)).Pairwise Item.Below ∧
      (∀ i, i ∈ l.map (·.1) ↔ i ∈ is) ∧ (∀ r ∈ l, r.2 = Int64.ofNat (is.count r.1)) ∧
      ∀ said r, (Script.ofWrite (.readAll is)).run.Partway said (.done r) ↔
        said = (if is = [] then [] else
          .begin_ :: l.map (fun r => .add r.1 .reads r.2) ++ [.commit]) ∧ r = .ok true) ∧
    ∀ n, ¬ Relation.TransGen (fun m n => (stops m).WaitsFor (stops n)) n n := by
  constructor
  · intro is
    refine ⟨Script.merged is, Script.pairwise_merged is, fun i => ⟨fun hi => ?_, fun hi => ?_⟩,
      fun r hr => ?_, fun said r => Script.partway_readAll⟩
    · obtain ⟨r, hr, rfl⟩ := List.mem_map.mp hi
      exact Script.mem_merged hr
    · obtain ⟨r, hr, rfl⟩ := Script.exists_mem_merged hi
      exact List.mem_map_of_mem hr
    · obtain ⟨i, -, rfl⟩ := List.mem_map.mp hr
      rfl
  · intro n hcircle
    have horderly : ∀ n, Script.Orderly [] (Script.ofWrite (stops n).write).run :=
      fun n => Script.orderly_ofWrite (hexact n)
    obtain ⟨k, l, hk, hl, hkl⟩ := exists_of_transGen horderly hcircle
    -- the row that is waited for is above all that are held, this one among them
    have hup : l.Below k := (horderly n).below_of_partway (stops n).partway (.inr hl) hk
    rcases hkl with rfl | hkl
    · exact Lock.Below.irrefl hup
    · exact Lock.Below.irrefl (hup.trans hkl)

/-- A list of reads of two items, after the first of them. -/
def halfway (i j : Item) (h : i.before j = true) (hne : i ≠ j) : Stop where
  write := .readAll [i, j]
  said := [.begin_, .add i .reads 1]
  next := .add j .reads 1
  rest _ := .ask .commit fun _ => .done (.ok true)
  partway := by
    rw [Script.run_readAll_eq_adding (List.cons_ne_nil _ _), Script.merged_pair h hne]
    exact .on () (.on () (.here _))

/-- A user's like of an item, which is about to be counted. -/
def liking (i : Item) (user : Int64) : Stop where
  write := .like i user
  said := [.begin_, .mark .like i user 0]
  next := .add i .likes 1
  rest _ := .ask .commit fun _ => .done (.ok true)
  partway := .on () (.on true (.here _))

/-- A list of two articles, after the first of them, and a like of that article. -/
def articles : Bool → Stop
  | true => halfway ⟨"article", 1⟩ ⟨"article", 2⟩ (by decide) (by decide)
  | false => liking ⟨"article", 1⟩ 7

/-- The like has to wait for the list, and so the list does not have to wait for the like. -/
theorem upward_waits_articles :
    (articles false).WaitsFor (articles true) ∧ ¬ (articles true).WaitsFor (articles false) := by
  have hwaits : (articles false).WaitsFor (articles true) :=
    ⟨.counts ⟨"article", 1⟩, by decide +kernel, .add ⟨"article", 1⟩ .reads 1, by decide +kernel⟩
  have hexact : ∀ n is, (articles n).write = .readAll is → ∀ i ∈ is, i.Exact := by
    rintro (_ | _) is his i hi
    · cases his
    · cases his
      refine Item.exact_of_length_le ?_
      revert i
      decide +kernel
  refine ⟨hwaits, fun hback => ?_⟩
  exact (upward_waits articles hexact).2 true (.tail (.single hback) hwaits)

/-- A list waits for another if its second item is counted in the row of the other's first. -/
theorem halfway_waitsFor {i j i' j' k : Item} {h : i.before j = true} {hne : i ≠ j}
    {h' : i'.before j' = true} {hne' : i' ≠ j'} (hj : Statement.fitItem j = .ok k)
    (hi' : Statement.fitItem i' = .ok k) : (halfway i j h hne).WaitsFor (halfway i' j' h' hne') :=
  ⟨.counts k, Statement.lock?_add.mpr ⟨k, hj, rfl⟩, .add i' .reads 1,
    List.mem_cons_of_mem _ List.mem_cons_self, Statement.lock?_add.mpr ⟨k, hi', rfl⟩⟩

/-- **Lists whose items are stored under another kind may wait for each other.** The item that is
too long by a blank comes last in the order of items, and its row comes first. -/
theorem circle_of_length_eq {cs : List Char} (h : cs.length = Statement.kindWidth) :
    ∃ s s' : Stop,
      s.write = .readAll [⟨String.ofList cs, 5⟩, ⟨String.ofList (cs ++ [' ']), 1⟩] ∧
      s'.write = .readAll [⟨String.ofList cs, 1⟩, ⟨String.ofList cs, 5⟩] ∧
      s.WaitsFor s' ∧ s'.WaitsFor s := by
  have hlist : Item.before ⟨String.ofList cs, 5⟩ ⟨String.ofList (cs ++ [' ']), 1⟩ = true :=
    Item.before_iff.mpr (.inl (ofList_lt_append_blank cs))
  have hlist' : Item.before ⟨String.ofList cs, 1⟩ ⟨String.ofList cs, 5⟩ = true :=
    Item.before_iff.mpr (.inr ⟨rfl, show (1 : Int64) ≤ 5 by decide⟩)
  have hfit (id : Int64) := Statement.fitItem_of_length_le (Nat.le_of_eq h) id
  exact ⟨halfway _ _ hlist (fun heq => by cases congrArg Item.id heq),
    halfway _ _ hlist' (fun heq => by cases congrArg Item.id heq), rfl, rfl,
    halfway_waitsFor (Statement.fitItem_append_blank h 1) (hfit 1),
    halfway_waitsFor (hfit 5) (hfit 5)⟩

/-- Two such lists, the first of which has the ragged article. -/
theorem exists_circle : ∃ s s' : Stop,
    s.write = .readAll [⟨String.ofList (List.replicate 128 'x'), 5⟩, Server.ragged] ∧
    s'.write = .readAll [⟨String.ofList (List.replicate 128 'x'), 1⟩,
      ⟨String.ofList (List.replicate 128 'x'), 5⟩] ∧ s.WaitsFor s' ∧ s'.WaitsFor s :=
  circle_of_length_eq List.length_replicate

end Stop

end Popularity
