import Popularity.Json.Domain
import Popularity.Proofs.Json.Compact

/-!
# Items are told by their names

An item is shown as an object with two members, and it does not matter how the text is laid out, in
which order the members stand, what other members there are, or what is in those. It may be shown as
a pair as well. These are all the texts that are read as the item, so that whatever is wrong about
one of the two members makes the text no item at all.

## Main definitions

* `Item.ShownAs` — the values that an item may be shown as
* `Item.Spoilt` — values that no item is shown as, and what is wrong with them

## Main results

* `Item.read?_eq_some_iff` — **the texts of an item**
* `Item.json_round_trip`
-/

namespace Popularity

namespace Item

/-! ### How items are shown -/

/-- The members for the kind and the id. -/
def shownMembers (i : Item) : List (Option String × Json) :=
  [(some "biz", .text i.kind), (some "biz_id", .word i.id)]

/-- The values that an item may be shown as. -/
inductive ShownAs (i : Item) : Json → Prop
  | members {ms others : List (Option String × Json)} (hms : ms.Perm (i.shownMembers ++ others))
    (hothers : ∀ m ∈ others, ∃ n, m.1 = some n ∧ n ≠ "biz" ∧ n ≠ "biz_id") : ShownAs i (.object ms)
  | pair : ShownAs i (.array [.text i.kind, .word i.id])

/-- Values that no item is shown as. -/
inductive Spoilt : Json → Prop
  /-- The kind or the id is missing or stands there more than once. -/
  | members {name : String} {ms : List (Option String × Json)} (hname : name ∈ ["biz", "biz_id"])
    (hms : (ms.filter (·.1 = some name)).length ≠ 1) : Spoilt (.object ms)
  /-- The id is out of range. -/
  | outside {n : Int} {ms : List (Option String × Json)} (hn : Word.IsOutside n)
    (hms : (some "biz_id", .int n) ∈ ms) : Spoilt (.object ms)
  /-- The id of a pair is out of range. -/
  | outsidePair {n : Int} {kind : Json} (hn : Word.IsOutside n) : Spoilt (.array [kind, .int n])
  /-- There are too few elements for a pair, or too many. -/
  | length {vs : List Json} (hvs : vs.length ≠ 2) : Spoilt (.array vs)

end Item

namespace Json

variable {ms : List (Option String × Json)} {name : String} {v : Json}

theorem only?_eq_some_iff :
    only? name ms = some v ↔ ms.filter (·.1 = some name) = [(some name, v)] := by
  have hname : ∀ m ∈ ms.filter (·.1 = some name), m.1 = some name := by simp
  rw [only?]
  split
  next n v' hms =>
    have hn : n = some name := hname (n, v') (hms ▸ List.mem_cons_self)
    simp [hms, hn]
  next hms =>
    simp only [reduceCtorEq, false_iff]
    exact fun h => hms _ _ h

/-- What else there is does not count. -/
theorem only?_filter {other : String} (hne : name ≠ other) :
    only? name (ms.filter (·.1 ≠ some other)) = only? name ms := by
  have hfilter : (ms.filter (·.1 ≠ some other)).filter (·.1 = some name)
      = ms.filter (·.1 = some name) := by
    rw [List.filter_filter]
    refine List.filter_congr fun m _ => ?_
    by_cases hm : m.1 = some name <;> simp [hm, hne]
  rw [only?, only?, hfilter]

theorem perm_of_only? (h : only? name ms = some v) :
    ms.Perm ((some name, v) :: ms.filter (·.1 ≠ some name)) := by
  have hperm := (List.filter_append_perm (·.1 = some name) ms).symm
  rw [only?_eq_some_iff.mp h] at hperm
  simpa using hperm

theorem text?_eq_some_iff {s : String} : v.text? = some s ↔ v = .text s := by
  cases v <;> simp [text?, text]

theorem word?_int (n : Int) : (int n).word? = Word.ofInt? n := by
  have hsign : Decimal.ofInt n ≠ ['-', '0'] := by
    intro h
    have hzero : n = 0 := Option.some_inj.mp ((Decimal.readSigned?_ofInt n).symm.trans (h ▸ rfl))
    rw [hzero] at h
    have hdigits : Decimal.digits 0 = ['-', '0'] := h
    rw [Decimal.digits] at hdigits
    cases hdigits
  rw [int, word?, if_neg hsign, Decimal.readSigned?_ofInt, Option.bind_some]

theorem word?_word (n : Int64) : (word n).word? = some n := by
  rw [word, word?_int, Word.ofInt?_toInt]

/-- A word is written in one way. -/
theorem eq_word_of_word? {w : List Char} {n : Int64} (hv : Written (.value v) w)
    (h : v.word? = some n) : v = word n := by
  cases v with
  | number x =>
    rw [word?] at h
    split at h
    next => cases h
    next hzero =>
      obtain ⟨m, hm, hn⟩ := Option.bind_eq_some_iff.mp h
      rw [word, int, Word.toInt_of_ofInt?_eq_some hn]
      exact congrArg _ (eq_ofInt_of_readSigned? (isNumber_of_written hv) hzero hm)
  | _ => cases h

end Json

namespace Item

variable {i : Item} {v : Json}

/-! ### Shown items are read -/

theorem only?_of_shown {ms others : List (Option String × Json)}
    (hms : ms.Perm (i.shownMembers ++ others))
    (hothers : ∀ m ∈ others, ∃ n, m.1 = some n ∧ n ≠ "biz" ∧ n ≠ "biz_id") :
    Json.only? "biz" ms = some (.text i.kind) ∧ Json.only? "biz_id" ms = some (.word i.id) := by
  have hfilter : ∀ name ∈ ["biz", "biz_id"], others.filter (·.1 = some name) = [] := by
    intro name hname
    rw [List.filter_eq_nil_iff]
    intro m hm
    obtain ⟨n, hn, hbiz, hid⟩ := hothers m hm
    have hne : n ≠ name := by
      simp only [List.mem_cons, List.not_mem_nil, or_false] at hname
      rcases hname with rfl | rfl <;> assumption
    simpa [hn] using hne
  constructor
  · have := hms.filter (·.1 = some "biz")
    rw [Json.only?_eq_some_iff, ← List.perm_singleton]
    simpa [shownMembers, hfilter] using this
  · have := hms.filter (·.1 = some "biz_id")
    rw [Json.only?_eq_some_iff, ← List.perm_singleton]
    simpa [shownMembers, hfilter] using this

theorem ofJson?_of_shownAs (h : i.ShownAs v) : ofJson? v = some i := by
  cases h with
  | @members ms others hms hothers =>
    have hnames : ms.all (·.1.isSome) = true := by
      rw [List.all_eq_true]
      intro m hm
      rcases List.mem_append.mp (hms.mem_iff.mp hm) with hm | hm
      · simp only [shownMembers, List.mem_cons, List.not_mem_nil, or_false] at hm
        rcases hm with rfl | rfl <;> rfl
      · obtain ⟨n, hn, -⟩ := hothers m hm
        rw [hn]
        rfl
    obtain ⟨hkind, hid⟩ := only?_of_shown hms hothers
    rw [ofJson?, if_pos hnames, hkind, hid]
    simp [Json.word?_word, Json.text?_eq_some_iff.mpr rfl]
  | pair => simp [ofJson?, Json.word?_word, Json.text?_eq_some_iff.mpr rfl]

theorem shownAs_of_ofJson? {w : List Char} (hv : Json.Written (.value v) w)
    (h : ofJson? v = some i) : i.ShownAs v := by
  rw [ofJson?.eq_def] at h
  split at h
  next kind id =>
    simp only [Option.bind_eq_bind, Option.bind_eq_some_iff] at h
    obtain ⟨k, hk, n, hn, heq⟩ := h
    cases heq
    obtain ⟨w', hid⟩ := Json.exists_written_of_mem_array (v := id) (by simp) hv
    rw [Json.text?_eq_some_iff.mp hk, Json.eq_word_of_word? hid hn]
    exact .pair
  next ms =>
    split at h
    next hnames =>
      simp only [Option.bind_eq_bind, Option.bind_eq_some_iff] at h
      obtain ⟨kind, hkind, id, hid, k, hk, n, hn, heq⟩ := h
      cases heq
      have hkinds := Json.perm_of_only? hkind
      rw [← Json.only?_filter (by decide : "biz_id" ≠ "biz")] at hid
      have hperm := hkinds.trans ((Json.perm_of_only? hid).cons _)
      obtain ⟨w', hw'⟩ := Json.exists_written_of_mem_object
        (hperm.mem_iff.mpr (List.mem_cons_of_mem _ List.mem_cons_self)) hv
      have hword : id = .word n := Json.eq_word_of_word? hw' hn
      rw [Json.text?_eq_some_iff.mp hk, hword] at hperm
      refine .members hperm fun m hm => ?_
      simp only [List.mem_filter, decide_eq_true_eq] at hm
      obtain ⟨⟨hm, hbiz⟩, hbizId⟩ := hm
      obtain ⟨name, hname⟩ := Option.isSome_iff_exists.mp (List.all_eq_true.mp hnames m hm)
      exact ⟨name, hname, by rintro rfl; exact hbiz hname, by rintro rfl; exact hbizId hname⟩
    next => cases h
  next => cases h

/-- **The texts that are read as an item** are those of the values that it may be shown as. -/
theorem read?_eq_some_iff {text : String} :
    read? text = some i ↔ ∃ v, i.ShownAs v ∧ Json.IsText v text.toList := by
  rw [read?, Option.bind_eq_some_iff]
  constructor
  · rintro ⟨v, hread, hitem⟩
    have htext := Json.readChars?_eq_some_iff.mp hread
    obtain ⟨w, hv⟩ := htext.written
    exact ⟨v, shownAs_of_ofJson? hv hitem, htext⟩
  · rintro ⟨v, hshown, htext⟩
    exact ⟨v, Json.readChars?_eq_some_iff.mpr htext, ofJson?_of_shownAs hshown⟩

/-! ### What is no item -/

theorem eq_of_int_eq_word {n : Int} {m : Int64} (h : Json.int n = Json.word m) : n = m.toInt := by
  rw [Json.word, Json.int, Json.int] at h
  exact Decimal.ofInt_injective (Json.number.inj h)

/-- **No item is shown as a spoilt value.** -/
theorem ShownAs.not_spoilt (hshown : i.ShownAs v) : ¬ Spoilt v := by
  have hrange : ∀ n : Int, Word.IsOutside n → Json.int n ≠ .word i.id := by
    intro n hn h
    rw [eq_of_int_eq_word h, ← Word.ofInt?_eq_none_iff, Word.ofInt?_toInt] at hn
    cases hn
  intro hspoilt
  cases hshown with
  | members hms hothers =>
    obtain ⟨hkind, hid⟩ := only?_of_shown hms hothers
    rw [Json.only?_eq_some_iff] at hkind hid
    cases hspoilt with
    | members hname hlength =>
      simp only [List.mem_cons, List.not_mem_nil, or_false] at hname
      rcases hname with rfl | rfl
      · exact hlength (by rw [hkind, List.length_singleton])
      · exact hlength (by rw [hid, List.length_singleton])
    | @outside n _ hn hmem =>
      have hfound : (some "biz_id", Json.int n) ∈ [(some "biz_id", Json.word i.id)] := by
        rw [← hid]
        exact List.mem_filter.mpr ⟨hmem, by simp⟩
      exact hrange n hn (Prod.mk.inj (List.mem_singleton.mp hfound)).2
  | pair =>
    generalize hid : Json.word i.id = id at hspoilt
    cases hspoilt with
    | outsidePair hn => exact hrange _ hn hid.symm
    | length hvs => exact hvs rfl

theorem read?_of_spoilt {text : String} (hv : Spoilt v) (htext : Json.IsText v text.toList) :
    read? text = none := by
  rw [Option.eq_none_iff_forall_ne_some]
  intro i hread
  obtain ⟨v', hshown, htext'⟩ := read?_eq_some_iff.mp hread
  have heq : v = v' := by
    rw [← Json.readChars?_eq_some_iff] at htext htext'
    exact Option.some_inj.mp (htext.symm.trans htext')
  exact hshown.not_spoilt (heq ▸ hv)

/-- Nothing may follow what is JSON and be read with it as an item. -/
theorem read?_append_eq_none {text rest : String} (htext : Json.IsText v text.toList)
    (hrest : ¬ Json.Blanks rest.toList) : read? (text ++ rest) = none := by
  rw [read?, Json.read?, String.toList_append]
  generalize text.toList = cs at htext
  by_cases hv : Json.Reader.MayGoOn (.value v)
  · rw [Option.bind_eq_none_iff]
    intro v' hread
    obtain ⟨hb, hw, -⟩ := htext
    cases hw with
    | number hw =>
      rw [List.append_assoc, List.append_assoc] at hread
      obtain ⟨w', rfl⟩ := Json.exists_number_of_readChars? hb hw hread
      rfl
    | _ => cases hv
  · rw [Json.readChars?_append_eq_none htext hv hrest, Option.bind_none]

/-! ### All texts of items -/

theorem shownAs_toJson (i : Item) : i.ShownAs i.toJson :=
  .members (List.Perm.refl (i.shownMembers ++ [])) nofun

theorem read?_toJson (i : Item) : read? i.toJson.compactText = some i := by
  have hlegible : i.toJson.Legible :=
    ⟨rfl, rfl, rfl, Json.isNumber_ofInt i.id.toInt, trivial⟩
  rw [read?, Json.read?_compactText hlegible, Option.bind_some,
    ofJson?_of_shownAs (shownAs_toJson i)]

/-- **Items as JSON round-trip, and it does not matter how the text is laid out.** An item is read
from its compact form, which therefore is its own, and from exactly the texts of the values that it
may be shown as. What is spoilt is refused, and so is all that something follows. -/
theorem json_round_trip :
    (∀ i : Item, read? i.toJson.compactText = some i) ∧
    Function.Injective (fun i : Item => i.toJson.compactText) ∧
    (∀ (i : Item) (text : String),
      read? text = some i ↔ ∃ v, i.ShownAs v ∧ Json.IsText v text.toList) ∧
    (∀ (v : Json) (text : String), Spoilt v → Json.IsText v text.toList → read? text = none) ∧
    (∀ (v : Json) (text rest : String), Json.IsText v text.toList → ¬ Json.Blanks rest.toList →
      read? (text ++ rest) = none) := by
  refine ⟨read?_toJson, ?_, fun _ _ => read?_eq_some_iff, fun _ _ => read?_of_spoilt,
    fun _ _ _ => read?_append_eq_none⟩
  intro i j h
  have hi := read?_toJson i
  rw [show i.toJson.compactText = j.toJson.compactText from h, read?_toJson] at hi
  exact (Option.some_inj.mp hi).symm

/-- The least id, and a kind in which nearly all has to be escaped. -/
def awkward : Item := ⟨"\"\\\x00😀", -9223372036854775808⟩

/-- The members in the other order, with something else in front. -/
def turned (i : Item) : Json :=
  .object (i.shownMembers ++ [(some "", Json.array [.array [.object []]])]).reverse

theorem shownAs_turned (i : Item) : i.ShownAs i.turned :=
  .members (List.reverse_perm _) (by simp)

/-- It is read from its compact form, and with its members turned and blanks around; an id too large
and a comma too many are refused. -/
theorem json_round_trip_awkward :
    read? "\x7b\"biz\":\"\\\"\\\\\\u0000😀\",\"biz_id\":-9223372036854775808\x7d" = some awkward ∧
    read? (" \x7b\"\":[[\x7b\x7d]],\"biz_id\":-9223372036854775808,"
      ++ "\"biz\":\"\\\"\\\\\\u0000😀\"\x7d\t") = some awkward ∧
    read? "[\"\",9223372036854775808]" = none ∧
    read? ("[\"\",0]" ++ ",") = none := by
  obtain ⟨hcompact, -, hread, hspoilt, hrest⟩ := json_round_trip
  refine ⟨?_, ?_, ?_, ?_⟩
  · have hform : awkward.toJson.compactText
        = "\x7b\"biz\":\"\\\"\\\\\\u0000😀\",\"biz_id\":-9223372036854775808\x7d" := by
      decide +kernel
    rw [← hform, hcompact]
  · have hlegible : awkward.turned.Legible :=
      ⟨rfl, ⟨⟨trivial, trivial⟩, trivial⟩, rfl, Json.isNumber_ofInt _, rfl, rfl, trivial⟩
    have hform : (" \x7b\"\":[[\x7b\x7d]],\"biz_id\":-9223372036854775808,"
        ++ "\"biz\":\"\\\"\\\\\\u0000😀\"\x7d\t").toList
          = [' '] ++ (awkward.turned.compact ++ ['\t']) := by
      decide +kernel
    rw [hread awkward, hform]
    exact ⟨_, shownAs_turned awkward, .mk (by simp [Json.Blanks]) (Json.written_compact hlegible)
      (by simp [Json.Blanks])⟩
  · have hlegible : (Json.array [.text "", .int 9223372036854775808]).Legible :=
      ⟨rfl, Json.isNumber_ofInt _, trivial⟩
    have hform : (Json.array [.text "", .int 9223372036854775808]).compactText
        = "[\"\",9223372036854775808]" := by
      decide +kernel
    rw [← hform]
    exact hspoilt _ _ (.outsidePair (.inr (by decide))) (Json.isText_compactText hlegible)
  · have hlegible : (Json.array [.text "", .int 0]).Legible :=
      ⟨rfl, Json.isNumber_ofInt _, trivial⟩
    have hform : (Json.array [.text "", .int 0]).compactText = "[\"\",0]" := by
      decide +kernel
    rw [← hform]
    exact hrest _ _ _ (Json.isText_compactText hlegible) (by simp [Json.Blanks])

end Item

end Popularity
