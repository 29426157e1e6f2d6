import Popularity.Proofs.Json.Tokens

/-!
# JSON is read as it is written

The reader and the grammar agree: a text is read as a value if and only if the value may be written
so. One induction goes over the parts of which a value is written, and shows that each is read and
leaves what comes after it. The other goes over the depth that the reader allows for, and shows that
what each of its four readers takes has been written.

The depth is never what stops the reader. Of two steps down at least one takes a character, so twice
the length of the text is enough.

## Main definitions

* `Json.Reader.Reads` — that a part is read, by the reader for its kind
* `Json.Reader.Complete`, `Json.Reader.Sound` — the two directions, as far as a depth allows

## Main results

* `Json.Reader.reads_of_written`, `Json.Reader.exists_written_of_reads`
* `Json.readChars?_eq_some_iff` — **the texts that are read**
* `Json.readChars?_append_eq_none` — no value but a number can go on
-/

namespace Popularity.Json

variable {b cs rest w : List Char} {fuel : Nat} {p : Part} {v : Json}

namespace Reader

/-- Whether a part is read and leaves the rest. -/
def Reads (fuel : Nat) (cs rest : List Char) : Part → Prop
  | .value v => value fuel cs = some (v, rest)
  | .elements vs => elements fuel cs = some (vs, rest)
  | .member m => member fuel cs = some (m, rest)
  | .members ms => members fuel cs = some (ms, rest)

/-! ### What is written is read -/

/-- Whether a part may end with a number. -/
def MayGoOn : Part → Prop
  | .value (.number _) | .member (_, .number _) => True
  | _ => False

/-- Neither blanks nor what starts a part looks like more of a number. -/
theorem stops_append (hb : Blanks b) (hcs : Stops cs) : Stops (b ++ cs) := by
  cases b with
  | nil => exact hcs
  | cons c b =>
    rintro d ⟨⟩
    rcases hb c List.mem_cons_self with rfl | rfl | rfl | rfl <;> decide

/-- With what parts may start. No value starts like the end of an array or an object. -/
def MayStart : Part → Char → Prop
  | .value _, c => c ≠ ']' ∧ c ≠ '\x7d'
  | .member _, c => c = '"'
  | .elements _, c => c = ',' ∨ c = ']'
  | .members _, c => c = ',' ∨ c = '\x7d'

theorem exists_eq_cons_of_written (h : Written p w) :
    ∃ c cs, w = c :: cs ∧ isBlank c = false ∧ MayStart p c := by
  cases h with
  | number hw =>
    cases hw with
    | positive hw =>
      obtain ⟨d, ds, rfl, hd⟩ := exists_eq_cons_of_isUnsigned hw
      have hblank : isBlank d = false := by
        rw [Bool.eq_false_iff]
        intro hblank
        rcases isBlank_iff.mp hblank with rfl | rfl | rfl | rfl <;> cases hd
      refine ⟨d, ds, rfl, hblank, ?_, ?_⟩ <;> rintro rfl <;> cases hd
    | negative => exact ⟨_, _, rfl, rfl, by decide, by decide⟩
  | string hw => cases hw; exact ⟨_, _, rfl, rfl, by decide, by decide⟩
  | member hn => cases hn; exact ⟨_, _, rfl, rfl, rfl⟩
  | null | true | false | emptyArray | array | emptyObject | object =>
    exact ⟨_, _, rfl, rfl, by decide, by decide⟩
  | nextElement | nextMember => exact ⟨_, _, rfl, rfl, .inl rfl⟩
  | lastElement | lastMember => exact ⟨_, _, rfl, rfl, .inr rfl⟩

theorem skip_written (hb : Blanks b) (h : Written p w) (rest : List Char) :
    skip (b ++ (w ++ rest)) = w ++ rest := by
  obtain ⟨c, cs, rfl, hc, -⟩ := exists_eq_cons_of_written h
  rw [skip_append hb]
  exact skip_cons hc _

/-! #### Steps of the readers -/

theorem value_quote (h : skip cs = '"' :: rest) :
    value (fuel + 1) cs = (string rest).map fun (s, rest) => (.string s, rest) := by
  rw [value, h]
  rfl

/-- A character that starts a number starts nothing else. -/
theorem value_number {c : Char} (h : skip cs = c :: rest) (hc : c = '-' ∨ c.isDigit = true) :
    value (fuel + 1) cs = (number (c :: rest)).map fun (w, rest) => (.number w, rest) := by
  rw [value, h]
  split
  case h_7 => rfl
  all_goals
    next heq =>
      rw [(List.cons.inj heq).1] at hc
      exact absurd hc (by decide)

theorem value_bracket (h : skip cs = '[' :: rest) :
    value (fuel + 1) cs = match skip rest with
      | ']' :: rest => some (.array [], rest)
      | rest => do
        let (v, rest) ← value fuel rest
        let (vs, rest) ← elements fuel rest
        return (.array (v :: vs), rest) := by
  rw [value, h]
  rfl

theorem value_brace (h : skip cs = '\x7b' :: rest) :
    value (fuel + 1) cs = match skip rest with
      | '\x7d' :: rest => some (.object [], rest)
      | rest => do
        let (m, rest) ← member fuel rest
        let (ms, rest) ← members fuel rest
        return (.object (m :: ms), rest) := by
  rw [value, h]
  rfl

theorem elements_comma (h : skip cs = ',' :: rest) :
    elements (fuel + 1) cs = (do
      let (v, rest) ← value fuel rest
      let (vs, rest) ← elements fuel rest
      return (v :: vs, rest)) := by
  rw [elements, h]
  rfl

theorem members_comma (h : skip cs = ',' :: rest) :
    members (fuel + 1) cs = (do
      let (m, rest) ← member fuel rest
      let (ms, rest) ← members fuel rest
      return (m :: ms, rest)) := by
  rw [members, h]
  rfl

theorem member_quote {n : Option String} {rest' rest'' : List Char} (h : skip cs = '"' :: rest)
    (hn : string rest = some (n, rest')) (hcolon : skip rest' = ':' :: rest'') :
    member (fuel + 1) cs = (value fuel rest'').map fun (v, rest) => ((n, v), rest) := by
  simp only [member, h, hn, hcolon, Option.bind_eq_bind, Option.bind_some]
  cases value fuel rest'' <;> rfl

theorem stops_elements {vs : List Json} (h : Written (.elements vs) w) (rest : List Char) :
    Stops (w ++ rest) := by
  obtain ⟨c, cs, rfl, -, rfl | rfl⟩ := exists_eq_cons_of_written h <;> rintro d ⟨⟩ <;> decide

theorem stops_members {ms : List (Option String × Json)} (h : Written (.members ms) w)
    (rest : List Char) : Stops (w ++ rest) := by
  obtain ⟨c, cs, rfl, -, rfl | rfl⟩ := exists_eq_cons_of_written h <;> rintro d ⟨⟩ <;> decide

/-- Whether parts are read as they are written, as far down as a depth allows. -/
def Complete (fuel : Nat) : Prop :=
  ∀ ⦃p : Part⦄ ⦃b w rest : List Char⦄, Written p w → Blanks b → (MayGoOn p → Stops rest) →
    2 * w.length ≤ fuel → Reads fuel (b ++ (w ++ rest)) rest p

/-- An element and those after it are read one after another. -/
theorem read_elements {vs : List Json} {b' ws : List Char} (ih : Complete fuel) (hb : Blanks b)
    (hb' : Blanks b') (hv : Written (.value v) w) (hvs : Written (.elements vs) ws)
    (hfuel : 2 * (w.length + ws.length) ≤ fuel) (rest : List Char) :
    value fuel (b ++ (w ++ (b' ++ (ws ++ rest)))) = some (v, b' ++ (ws ++ rest)) ∧
      elements fuel (b' ++ (ws ++ rest)) = some (vs, rest) :=
  ⟨ih hv hb (fun _ => stops_append hb' (stops_elements hvs rest)) (by omega),
    ih hvs hb' nofun (by omega)⟩

/-- A member and those after it are read one after another. -/
theorem read_members {m : Option String × Json} {ms : List (Option String × Json)}
    {b' ws : List Char} (ih : Complete fuel) (hb : Blanks b) (hb' : Blanks b')
    (hm : Written (.member m) w) (hms : Written (.members ms) ws)
    (hfuel : 2 * (w.length + ws.length) ≤ fuel) (rest : List Char) :
    member fuel (b ++ (w ++ (b' ++ (ws ++ rest)))) = some (m, b' ++ (ws ++ rest)) ∧
      members fuel (b' ++ (ws ++ rest)) = some (ms, rest) :=
  ⟨ih hm hb (fun _ => stops_append hb' (stops_members hms rest)) (by omega),
    ih hms hb' nofun (by omega)⟩

/-- What starts an element is not the end of an array. -/
theorem value_array {vs : List Json} {b' ws : List Char} (ih : Complete fuel)
    (hskip : skip cs = '[' :: (b ++ (w ++ (b' ++ (ws ++ rest))))) (hb : Blanks b)
    (hb' : Blanks b') (hv : Written (.value v) w) (hvs : Written (.elements vs) ws)
    (hfuel : 2 * (w.length + ws.length) ≤ fuel) :
    value (fuel + 1) cs = some (.array (v :: vs), rest) := by
  obtain ⟨hfirst, hothers⟩ := read_elements ih blanks_nil hb' hv hvs hfuel rest
  rw [List.nil_append] at hfirst
  obtain ⟨c, cs, rfl, -, hend, -⟩ := exists_eq_cons_of_written hv
  rw [value_bracket hskip, skip_written hb hv]
  split
  next heq => exact absurd (List.cons.inj heq).1 hend
  next =>
    rw [hfirst]
    simp [hothers]

/-- What starts a member is not the end of an object. -/
theorem value_object {m : Option String × Json} {ms : List (Option String × Json)}
    {b' ws : List Char} (ih : Complete fuel)
    (hskip : skip cs = '\x7b' :: (b ++ (w ++ (b' ++ (ws ++ rest))))) (hb : Blanks b)
    (hb' : Blanks b') (hm : Written (.member m) w) (hms : Written (.members ms) ws)
    (hfuel : 2 * (w.length + ws.length) ≤ fuel) :
    value (fuel + 1) cs = some (.object (m :: ms), rest) := by
  obtain ⟨hfirst, hothers⟩ := read_members ih blanks_nil hb' hm hms hfuel rest
  rw [List.nil_append] at hfirst
  obtain ⟨c, cs, rfl, -, hquote⟩ := exists_eq_cons_of_written hm
  rw [value_brace hskip, skip_written hb hm]
  split
  next heq => exact absurd ((List.cons.inj heq).1.symm.trans hquote) (by decide)
  next =>
    rw [hfirst]
    simp [hothers]

/-- A name is read up to its colon, and then its value. -/
theorem member_append {n : Option String} {b' ws : List Char} (ih : Complete fuel)
    (hskip : skip cs = w ++ (b ++ ':' :: (b' ++ (ws ++ rest)))) (hn : IsString n w)
    (hb : Blanks b) (hb' : Blanks b') (hv : Written (.value v) ws)
    (hrest : MayGoOn (.value v) → Stops rest) (hfuel : 2 * ws.length ≤ fuel) :
    member (fuel + 1) cs = some ((n, v), rest) := by
  have hvalue : value fuel (b' ++ (ws ++ rest)) = some (v, rest) := ih hv hb' hrest hfuel
  have hcolon : skip (b ++ ':' :: (b' ++ (ws ++ rest))) = ':' :: (b' ++ (ws ++ rest)) :=
    skip_append hb _
  cases hn with
  | @mk ps w hps =>
    have hname := string_append (.mk hps) (b ++ ':' :: (b' ++ (ws ++ rest)))
    rw [List.cons_append] at hskip
    rw [member_quote hskip hname hcolon, hvalue]
    rfl

/-- **What is written is read**, and what comes after it is left. -/
theorem reads_of_written (fuel : Nat) : Complete fuel := by
  -- The induction is on the depth, because a member is read one step further down than its value.
  induction fuel with
  | zero =>
    intro p b w rest h
    obtain ⟨c, cs, rfl, -⟩ := exists_eq_cons_of_written h
    simp
  | succ fuel ih =>
    intro p b w rest h hb hrest hfuel
    have hskip := skip_written hb h rest
    cases h with
    | null | true | false =>
      rw [Reads, value, hskip]
      rfl
    | number hw =>
      have hread := number_append hw (hrest trivial)
      obtain ⟨c, cs, rfl, hc⟩ := exists_eq_cons_of_isNumber hw
      rw [Reads, value_number hskip hc]
      exact congrArg _ hread
    | string hw =>
      cases hw with
      | @mk ps w hps =>
        rw [Reads, value_quote hskip]
        exact congrArg _ (string_append (.mk hps) rest)
    | emptyArray hb' =>
      simp only [List.cons_append, List.append_assoc, List.nil_append] at hskip ⊢
      rw [Reads, value_bracket hskip, skip_append hb']
      rfl
    | array hb₁ hb₂ hv hvs =>
      simp only [List.cons_append, List.append_assoc, List.length_cons, List.length_append]
        at hskip hfuel ⊢
      exact value_array ih hskip hb₁ hb₂ hv hvs (by omega)
    | lastElement =>
      rw [Reads, elements, hskip]
      rfl
    | nextElement hb₁ hb₂ hv hvs =>
      simp only [List.cons_append, List.append_assoc, List.length_cons, List.length_append]
        at hskip hfuel ⊢
      obtain ⟨hfirst, hothers⟩ := read_elements ih hb₁ hb₂ hv hvs (by omega) rest
      rw [Reads, elements_comma hskip, hfirst]
      simp [hothers]
    | emptyObject hb' =>
      simp only [List.cons_append, List.append_assoc, List.nil_append] at hskip ⊢
      rw [Reads, value_brace hskip, skip_append hb']
      rfl
    | object hb₁ hb₂ hm hms =>
      simp only [List.cons_append, List.append_assoc, List.length_cons, List.length_append]
        at hskip hfuel ⊢
      exact value_object ih hskip hb₁ hb₂ hm hms (by omega)
    | @member n v _ _ _ _ hn hb₁ hb₂ hv =>
      simp only [List.cons_append, List.append_assoc, List.length_cons, List.length_append]
        at hskip hfuel ⊢
      have hrest : MayGoOn (.value v) → Stops rest := by cases v <;> exact hrest
      exact member_append ih hskip hn hb₁ hb₂ hv hrest (by omega)
    | lastMember =>
      rw [Reads, members, hskip]
      rfl
    | nextMember hb₁ hb₂ hm hms =>
      simp only [List.cons_append, List.append_assoc, List.length_cons, List.length_append]
        at hskip hfuel ⊢
      obtain ⟨hfirst, hothers⟩ := read_members ih hb₁ hb₂ hm hms (by omega) rest
      rw [Reads, members_comma hskip, hfirst]
      simp [hothers]

/-! ### What is read has been written -/

/-- Whether what is read has been written, as far down as a depth allows. -/
def Sound (fuel : Nat) : Prop :=
  ∀ ⦃p : Part⦄ ⦃cs rest : List Char⦄, Reads fuel cs rest p →
    ∃ b w, Blanks b ∧ Written p w ∧ cs = b ++ (w ++ rest)

theorem written_elements {α : Type} {f : Json → List Json → α} {x : α} (ih : Sound fuel)
    (h : (do
      let (v, rest) ← value fuel cs
      let (vs, rest) ← elements fuel rest
      return (f v vs, rest)) = some (x, rest)) :
    ∃ v vs b b' w ws, x = f v vs ∧ Blanks b ∧ Blanks b' ∧ Written (.value v) w ∧
      Written (.elements vs) ws ∧ cs = b ++ (w ++ (b' ++ (ws ++ rest))) := by
  simp only [Option.bind_eq_bind, Option.bind_eq_some_iff, Prod.exists] at h
  obtain ⟨v, rest₁, hv, vs, rest₂, hvs, heq⟩ := h
  cases heq
  obtain ⟨b, w, hb, hw, rfl⟩ := ih (p := .value v) hv
  obtain ⟨b', ws, hb', hws, rfl⟩ := ih (p := .elements vs) hvs
  exact ⟨v, vs, b, b', w, ws, rfl, hb, hb', hw, hws, rfl⟩

theorem written_members {α : Type}
    {f : Option String × Json → List (Option String × Json) → α} {x : α} (ih : Sound fuel)
    (h : (do
      let (m, rest) ← member fuel cs
      let (ms, rest) ← members fuel rest
      return (f m ms, rest)) = some (x, rest)) :
    ∃ m ms b b' w ws, x = f m ms ∧ Blanks b ∧ Blanks b' ∧ Written (.member m) w ∧
      Written (.members ms) ws ∧ cs = b ++ (w ++ (b' ++ (ws ++ rest))) := by
  simp only [Option.bind_eq_bind, Option.bind_eq_some_iff] at h
  obtain ⟨⟨m, rest₁⟩, hm, ⟨ms, rest₂⟩, hms, heq⟩ := h
  cases heq
  obtain ⟨b, w, hb, hw, rfl⟩ := ih (p := .member m) hm
  obtain ⟨b', ws, hb', hws, rfl⟩ := ih (p := .members ms) hms
  exact ⟨m, ms, b, b', w, ws, rfl, hb, hb', hw, hws, rfl⟩

theorem eq_of_map_word? {ws : List Char} {u : Json}
    (h : (word? ws cs).map (u, ·) = some (v, rest)) : v = u ∧ cs = ws ++ rest := by
  obtain ⟨rest', hword, heq⟩ := Option.map_eq_some_iff.mp h
  cases heq
  exact ⟨rfl, eq_append_of_word? hword⟩

/-- A value that is read after leading blanks has been written. -/
theorem exists_written_value (ih : Sound fuel) (h : value (fuel + 1) cs = some (v, rest)) :
    ∃ w, Written (.value v) w ∧ skip cs = w ++ rest := by
  rw [value.eq_def] at h
  dsimp only at h
  split at h
  next heq =>
    obtain ⟨rfl, rfl⟩ := eq_of_map_word? h
    exact ⟨_, .null, heq⟩
  next heq =>
    obtain ⟨rfl, rfl⟩ := eq_of_map_word? h
    exact ⟨_, .true, heq⟩
  next heq =>
    obtain ⟨rfl, rfl⟩ := eq_of_map_word? h
    exact ⟨_, .false, heq⟩
  next heq =>
    obtain ⟨⟨s, rest⟩, hstring, heq'⟩ := Option.map_eq_some_iff.mp h
    cases heq'
    obtain ⟨w, rfl, hw⟩ := isString_of_string hstring
    exact ⟨_, .string hw, heq⟩
  next cs' heq =>
    obtain ⟨b, hb, hcs'⟩ := exists_eq_append_skip cs'
    split at h
    next heq' =>
      cases h
      exact ⟨_, .emptyArray hb, by rw [heq, hcs', heq']; simp⟩
    next =>
      obtain ⟨v, vs, b₁, b₂, w, ws, rfl, hb₁, hb₂, hw, hws, hskip⟩ :=
        written_elements (f := fun v vs => array (v :: vs)) ih h
      exact ⟨_, .array (blanks_append hb hb₁) hb₂ hw hws, by rw [heq, hcs', hskip]; simp⟩
  next cs' heq =>
    obtain ⟨b, hb, hcs'⟩ := exists_eq_append_skip cs'
    split at h
    next heq' =>
      cases h
      exact ⟨_, .emptyObject hb, by rw [heq, hcs', heq']; simp⟩
    next =>
      obtain ⟨m, ms, b₁, b₂, w, ws, rfl, hb₁, hb₂, hw, hws, hskip⟩ :=
        written_members (f := fun m ms => object (m :: ms)) ih h
      exact ⟨_, .object (blanks_append hb hb₁) hb₂ hw hws, by rw [heq, hcs', hskip]; simp⟩
  next =>
    obtain ⟨⟨w, rest⟩, hnumber, heq⟩ := Option.map_eq_some_iff.mp h
    cases heq
    obtain ⟨hw, heq⟩ := isNumber_of_number hnumber
    exact ⟨_, .number hw, heq⟩

/-- What is read after leading blanks has been written. -/
theorem exists_written_skip (ih : Sound fuel) (h : Reads (fuel + 1) cs rest p) :
    ∃ w, Written p w ∧ skip cs = w ++ rest := by
  cases p with
  | value v => exact exists_written_value ih h
  | elements vs =>
    rw [Reads, elements.eq_def] at h
    dsimp only at h
    split at h
    next heq =>
      cases h
      exact ⟨_, .lastElement, heq⟩
    next heq =>
      obtain ⟨v, vs, b₁, b₂, w, ws, rfl, hb₁, hb₂, hw, hws, rfl⟩ :=
        written_elements (f := List.cons) ih h
      exact ⟨_, .nextElement hb₁ hb₂ hw hws, by simpa using heq⟩
    next => cases h
  | member m =>
    rw [Reads, member.eq_def] at h
    dsimp only at h
    split at h
    next heq =>
      simp only [Option.bind_eq_bind, Option.bind_eq_some_iff, Prod.exists] at h
      obtain ⟨n, cs₁, hstring, h⟩ := h
      obtain ⟨w, rfl, hw⟩ := isString_of_string hstring
      obtain ⟨b₁, hb₁, hcs₁⟩ := exists_eq_append_skip cs₁
      split at h
      next hcolon =>
        obtain ⟨⟨v, rest⟩, hv, heq'⟩ := Option.bind_eq_some_iff.mp h
        cases heq'
        obtain ⟨b₂, ws, hb₂, hws, rfl⟩ := ih (p := .value v) hv
        exact ⟨_, .member hw hb₁ hb₂ hws, by rw [heq, hcs₁, hcolon]; simp⟩
      next => cases h
    next => cases h
  | members ms =>
    rw [Reads, members.eq_def] at h
    dsimp only at h
    split at h
    next heq =>
      cases h
      exact ⟨_, .lastMember, heq⟩
    next heq =>
      obtain ⟨m, ms, b₁, b₂, w, ws, rfl, hb₁, hb₂, hw, hws, rfl⟩ :=
        written_members (f := List.cons) ih h
      exact ⟨_, .nextMember hb₁ hb₂ hw hws, by simpa using heq⟩
    next => cases h

/-- **What is read has been written**, after blanks and before what is left. -/
theorem exists_written_of_reads (fuel : Nat) : Sound fuel := by
  induction fuel with
  | zero => intro p _ _ h; cases p <;> cases h
  | succ fuel ih =>
    intro p cs rest h
    obtain ⟨w, hw, hskip⟩ := exists_written_skip ih h
    obtain ⟨b, hb, hcs⟩ := exists_eq_append_skip cs
    exact ⟨b, w, hb, hw, by rw [← hskip, ← hcs]⟩

end Reader

/-! ### Whole texts -/

open Reader

theorem readChars?_append (hb : Blanks b) (h : Written (.value v) w)
    (hrest : MayGoOn (.value v) → Stops rest) :
    readChars? (b ++ (w ++ rest)) = if (skip rest).isEmpty then some v else none := by
  have hread : value (2 * (b ++ (w ++ rest)).length + 1) (b ++ (w ++ rest)) = some (v, rest) :=
    reads_of_written _ h hb hrest (by simp; omega)
  rw [readChars?, hread]
  rfl

/-- **A text is read as the value that it is written for.** -/
theorem readChars?_eq_some_iff : readChars? cs = some v ↔ IsText v cs := by
  constructor
  · intro h
    simp only [readChars?, Option.bind_eq_bind, Option.bind_eq_some_iff, Prod.exists] at h
    obtain ⟨v, rest, hread, h⟩ := h
    split at h
    next hrest =>
      cases h
      obtain ⟨b, w, hb, hw, rfl⟩ := exists_written_of_reads _ (p := .value v) hread
      exact .mk hb hw (skip_eq_nil_iff.mp (List.isEmpty_iff.mp hrest))
    next => cases h
  · rintro ⟨hb, hw, hb'⟩
    have hend : Stops [] := nofun
    have hstops := stops_append hb' hend
    rw [List.append_nil] at hstops
    rw [readChars?_append hb hw fun _ => hstops, skip_eq_nil_iff.mpr hb']
    rfl

/-- **Nothing may follow a value**, unless it is a number, which may go on. -/
theorem readChars?_append_eq_none (h : IsText v cs) (hv : ¬ MayGoOn (.value v))
    (hrest : ¬ Blanks rest) : readChars? (cs ++ rest) = none := by
  obtain ⟨hb, hw, hb'⟩ := h
  rw [List.append_assoc, List.append_assoc, readChars?_append hb hw fun h => absurd h hv,
    skip_append hb', if_neg]
  rwa [List.isEmpty_iff, skip_eq_nil_iff]

/-- A number that goes on is a number still. -/
theorem exists_number_of_readChars? (hb : Blanks b) (hw : IsNumber w)
    (h : readChars? (b ++ (w ++ rest)) = some v) : ∃ w', v = .number w' := by
  simp only [readChars?, Option.bind_eq_bind, Option.bind_eq_some_iff, Prod.exists] at h
  obtain ⟨v', rest', hread, h⟩ := h
  have hskip := skip_written hb (.number hw) rest
  obtain ⟨c, cs, rfl, hc⟩ := exists_eq_cons_of_isNumber hw
  rw [value_number hskip hc] at hread
  obtain ⟨⟨w', _⟩, -, heq⟩ := Option.map_eq_some_iff.mp hread
  cases heq
  split at h
  next =>
    cases h
    exact ⟨w', rfl⟩
  next => cases h

end Popularity.Json
