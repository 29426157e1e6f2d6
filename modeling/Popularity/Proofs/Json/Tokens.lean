import Popularity.Json.Reader
import Popularity.Proofs.Json.Grammar
import Mathlib.Data.List.TakeDrop
import Mathlib.Data.List.TakeWhile

/-!
# Tokens are read as they are written

The readers of blanks, numbers and strings meet the grammar in both directions: what is written is
read, with all that comes after it left over, and what is read has been written.

A number has no end of its own, so it is read as far as it goes; what comes after it must not look
like more of it. A string ends with its quote. In it, half of a pair is looked at together with what
follows, which is why pieces cannot be read one by one.

## Main results

* `Json.Reader.skip_append`, `Json.Reader.exists_eq_append_skip`
* `Json.Reader.number_append`, `Json.Reader.isNumber_of_number`
* `Json.Reader.string_append`, `Json.Reader.isString_of_string`
-/

namespace Popularity.Json

variable {b cs ds rest w : List Char}

namespace Reader

/-! ### Blanks -/

theorem isBlank_iff {c : Char} : isBlank c = true ↔ c = ' ' ∨ c = '\n' ∨ c = '\t' ∨ c = '\r' := by
  simp [isBlank, or_assoc]

theorem blanks_nil : Blanks [] := nofun

theorem blanks_append {b' : List Char} (hb : Blanks b) (hb' : Blanks b') : Blanks (b ++ b') :=
  fun c hc => (List.mem_append.mp hc).elim (hb c) (hb' c)

theorem skip_append (hb : Blanks b) (cs : List Char) : skip (b ++ cs) = skip cs :=
  List.dropWhile_append_of_pos fun c hc => isBlank_iff.mpr (hb c hc)

theorem skip_cons {c : Char} (hc : isBlank c = false) (cs : List Char) :
    skip (c :: cs) = c :: cs :=
  List.dropWhile_cons_of_neg (by simp [hc])

/-- What is skipped is blank. -/
theorem exists_eq_append_skip (cs : List Char) : ∃ b, Blanks b ∧ cs = b ++ skip cs :=
  ⟨cs.takeWhile isBlank, fun _ hc => isBlank_iff.mp (List.mem_takeWhile_imp hc),
    List.takeWhile_append_dropWhile.symm⟩

theorem skip_eq_nil_iff : skip cs = [] ↔ Blanks cs := by
  constructor
  · intro h
    obtain ⟨b, hb, hcs⟩ := exists_eq_append_skip cs
    rwa [hcs, h, List.append_nil]
  · intro h
    rw [← List.append_nil cs, skip_append h]
    rfl

theorem eq_append_of_word? {ws : List Char} (h : word? ws cs = some rest) : cs = ws ++ rest := by
  induction ws generalizing cs with
  | nil =>
    cases h
    rfl
  | cons c ws ih =>
    cases cs with
    | nil => cases h
    | cons c' cs =>
      rw [word?] at h
      split at h
      next hc => rw [hc, List.cons_append, ih h]
      next => cases h

/-! ### Numbers -/

/-- Whether no number goes on with these characters. -/
def Stops (cs : List Char) : Prop :=
  ∀ c ∈ cs.head?, c.isDigit = false ∧ c ≠ '.' ∧ c ≠ 'e' ∧ c ≠ 'E'

theorem digits1_append (hds : IsDigits ds) (hrest : ∀ c ∈ rest.head?, c.isDigit = false) :
    digits1 (ds ++ rest) = some (ds, rest) := by
  have hspan : (ds ++ rest).span Char.isDigit = (ds, rest) := by
    rw [List.span_eq_takeWhile_dropWhile, List.takeWhile_append_of_pos hds.2,
      List.dropWhile_append_of_pos hds.2]
    cases rest with
    | nil => simp
    | cons c rest =>
      have hc : ¬ c.isDigit = true := by simp [hrest c rfl]
      rw [List.takeWhile_cons_of_neg hc, List.dropWhile_cons_of_neg hc, List.append_nil]
  rw [digits1, hspan]
  simp [hds.1]

theorem isDigits_of_digits1 (h : digits1 cs = some (ds, rest)) : IsDigits ds ∧ cs = ds ++ rest := by
  rw [digits1, List.span_eq_takeWhile_dropWhile] at h
  dsimp only at h
  split at h
  · cases h
  · next hne =>
    cases h
    exact ⟨⟨by simpa using hne, fun d hd => List.mem_takeWhile_imp hd⟩,
      List.takeWhile_append_dropWhile.symm⟩

theorem wholePart_append (hw : IsWhole w) (hrest : ∀ c ∈ rest.head?, c.isDigit = false) :
    wholePart (w ++ rest) = some (w, rest) := by
  cases hw with
  | zero => rfl
  | digits hds hhead =>
    rw [wholePart]
    · exact digits1_append hds hrest
    · intro cs heq
      obtain ⟨d, ds, rfl⟩ := List.exists_cons_of_ne_nil hds.1
      exact hhead (congrArg some (List.cons.inj heq).1)

theorem isWhole_of_wholePart (h : wholePart cs = some (w, rest)) : IsWhole w ∧ cs = w ++ rest := by
  rw [wholePart.eq_def] at h
  split at h
  next cs =>
    cases h
    exact ⟨.zero, rfl⟩
  next hzero =>
    obtain ⟨hds, rfl⟩ := isDigits_of_digits1 h
    refine ⟨.digits hds fun hhead => ?_, rfl⟩
    obtain ⟨ds, rfl⟩ := List.head?_eq_some_iff.mp hhead
    exact hzero _ rfl

theorem fractionPart_append {f : List Char} (hf : IsFraction f)
    (hrest : ∀ c ∈ rest.head?, c.isDigit = false ∧ c ≠ '.') :
    fractionPart (f ++ rest) = some (f, rest) := by
  cases hf with
  | none =>
    rw [List.nil_append, fractionPart]
    rintro cs rfl
    exact (hrest '.' rfl).2 rfl
  | digits hds =>
    rw [List.cons_append, fractionPart, digits1_append hds fun c hc => (hrest c hc).1]
    rfl

theorem isFraction_of_fractionPart {f : List Char} (h : fractionPart cs = some (f, rest)) :
    IsFraction f ∧ cs = f ++ rest := by
  rw [fractionPart.eq_def] at h
  split at h
  next cs =>
    obtain ⟨⟨ds, rest⟩, hread, heq⟩ := Option.map_eq_some_iff.mp h
    cases heq
    obtain ⟨hds, rfl⟩ := isDigits_of_digits1 hread
    exact ⟨.digits hds, rfl⟩
  next =>
    cases h
    exact ⟨.none, rfl⟩

theorem exponentPart_append {e : List Char} (he : IsExponent e) (hrest : Stops rest) :
    exponentPart (e ++ rest) = some (e, rest) := by
  have hdigit : ∀ c ∈ rest.head?, c.isDigit = false := fun c hc => (hrest c hc).1
  cases he with
  | none =>
    cases rest with
    | nil => rfl
    | cons c rest =>
      obtain ⟨-, -, hlower, hupper⟩ := hrest c rfl
      simp [exponentPart, hlower, hupper]
  | @bare e ds he hds =>
    obtain ⟨d, ds, rfl⟩ := List.exists_cons_of_ne_nil hds.1
    have hd : d.isDigit = true := hds.2 d List.mem_cons_self
    have hplus : d ≠ '+' := by rintro rfl; cases hd
    have hminus : d ≠ '-' := by rintro rfl; cases hd
    have hread := digits1_append hds hdigit
    rw [List.cons_append] at hread
    simp [exponentPart, he, hplus, hminus, hread]
  | @signed e s ds he hs hds =>
    have hread := digits1_append hds hdigit
    rcases hs with rfl | rfl <;> simp [exponentPart, he, hread]

theorem isExponent_of_exponentPart {e : List Char} (h : exponentPart cs = some (e, rest)) :
    IsExponent e ∧ cs = e ++ rest := by
  rw [exponentPart.eq_def] at h
  split at h
  next =>
    cases h
    exact ⟨.none, rfl⟩
  next c cs =>
    split at h
    next hc =>
      split at h
      all_goals
        obtain ⟨⟨ds, rest⟩, hread, heq⟩ := Option.map_eq_some_iff.mp h
        cases heq
        obtain ⟨hds, rfl⟩ := isDigits_of_digits1 hread
      · exact ⟨.signed hc (.inl rfl) hds, rfl⟩
      · exact ⟨.signed hc (.inr rfl) hds, rfl⟩
      · exact ⟨.bare hc hds, rfl⟩
    next =>
      cases h
      exact ⟨.none, rfl⟩

/-- A power of ten is no digit and no point, nor is what comes after it. -/
theorem head?_exponent {e : List Char} (he : IsExponent e) (hrest : Stops rest) :
    ∀ c ∈ (e ++ rest).head?, c.isDigit = false ∧ c ≠ '.' := by
  cases he with
  | none => exact fun c hc => ⟨(hrest c hc).1, (hrest c hc).2.1⟩
  | bare he | signed he =>
    rintro c ⟨⟩
    rcases he with rfl | rfl <;> decide

theorem head?_fraction {f : List Char} (hf : IsFraction f)
    (hrest : ∀ c ∈ rest.head?, c.isDigit = false ∧ c ≠ '.') :
    ∀ c ∈ (f ++ rest).head?, c.isDigit = false := by
  cases hf with
  | none => exact fun c hc => (hrest c hc).1
  | digits =>
    rintro c ⟨⟩
    decide

theorem unsigned_append (hw : IsUnsigned w) (hrest : Stops rest) :
    unsigned (w ++ rest) = some (w, rest) := by
  obtain ⟨hw, hf, he⟩ := hw
  have hexponent := head?_exponent he hrest
  rw [unsigned, List.append_assoc, List.append_assoc,
    wholePart_append hw (head?_fraction hf hexponent)]
  simp only [Option.bind_eq_bind, Option.bind_some]
  rw [fractionPart_append hf hexponent]
  simp only [Option.bind_some]
  rw [exponentPart_append he hrest]
  rfl

theorem isUnsigned_of_unsigned (h : unsigned cs = some (w, rest)) :
    IsUnsigned w ∧ cs = w ++ rest := by
  simp only [unsigned, Option.bind_eq_bind, Option.bind_eq_some_iff, Prod.exists] at h
  obtain ⟨w, cs₁, hwhole, f, cs₂, hfraction, e, cs₃, hexponent, heq⟩ := h
  cases heq
  obtain ⟨hw, rfl⟩ := isWhole_of_wholePart hwhole
  obtain ⟨hf, rfl⟩ := isFraction_of_fractionPart hfraction
  obtain ⟨he, rfl⟩ := isExponent_of_exponentPart hexponent
  exact ⟨.mk hw hf he, by simp⟩

/-- A number without its sign starts with a digit. -/
theorem exists_eq_cons_of_isUnsigned (hw : IsUnsigned w) :
    ∃ d ds, w = d :: ds ∧ d.isDigit = true := by
  obtain ⟨hw, -, -⟩ := hw
  cases hw with
  | zero => exact ⟨_, _, rfl, by decide⟩
  | digits hds =>
    obtain ⟨d, ds, rfl⟩ := List.exists_cons_of_ne_nil hds.1
    exact ⟨_, _, rfl, hds.2 d List.mem_cons_self⟩

theorem exists_eq_cons_of_isNumber (hw : IsNumber w) :
    ∃ c cs, w = c :: cs ∧ (c = '-' ∨ c.isDigit = true) := by
  cases hw with
  | positive hw =>
    obtain ⟨d, ds, rfl, hd⟩ := exists_eq_cons_of_isUnsigned hw
    exact ⟨d, ds, rfl, .inr hd⟩
  | negative => exact ⟨_, _, rfl, .inl rfl⟩

/-- **A number is read as far as it goes.** -/
theorem number_append (hw : IsNumber w) (hrest : Stops rest) :
    number (w ++ rest) = some (w, rest) := by
  cases hw with
  | positive hw =>
    rw [number]
    · exact unsigned_append hw hrest
    · intro cs heq
      obtain ⟨d, ds, rfl, hd⟩ := exists_eq_cons_of_isUnsigned hw
      rw [(List.cons.inj heq).1] at hd
      cases hd
  | negative hw =>
    rw [List.cons_append, number, unsigned_append hw hrest]
    rfl

theorem isNumber_of_number (h : number cs = some (w, rest)) : IsNumber w ∧ cs = w ++ rest := by
  rw [number.eq_def] at h
  split at h
  next cs =>
    obtain ⟨⟨w, rest⟩, hread, heq⟩ := Option.map_eq_some_iff.mp h
    cases heq
    obtain ⟨hw, rfl⟩ := isUnsigned_of_unsigned hread
    exact ⟨.negative hw, rfl⟩
  next =>
    obtain ⟨hw, rfl⟩ := isUnsigned_of_unsigned h
    exact ⟨.positive hw, rfl⟩

/-! ### Codes -/

theorem hexValue?_of_isHex {c : Char} {d : Nat} (h : IsHex c d) : hexValue? c = some d := by
  obtain ⟨hd, hc⟩ := h
  have hlower : ∀ d < 16, hexValue? (hexDigit d) = some d := by decide
  have hupper : ∀ d < 16, hexValue? (hexDigit d).toUpper = some d := by decide
  rcases hc with rfl | rfl
  · exact hlower d hd
  · exact hupper d hd

theorem isHex_of_hexValue? {c : Char} {d : Nat} (h : hexValue? c = some d) : IsHex c d := by
  have hdigit : ∀ d < 10, Char.ofNat (48 + d) = hexDigit d := by decide
  have hlower : ∀ d < 16, 10 ≤ d → Char.ofNat (87 + d) = hexDigit d := by decide
  have hupper : ∀ d < 16, 10 ≤ d → Char.ofNat (55 + d) = (hexDigit d).toUpper := by decide
  rw [hexValue?] at h
  split at h
  next hc =>
    have hlow : 48 ≤ c.toNat := hc.1
    have hhigh : c.toNat ≤ 57 := hc.2
    cases h
    refine ⟨by omega, .inl ?_⟩
    rw [← hdigit _ (by omega), Nat.add_sub_cancel' hlow, Char.ofNat_toNat]
  next =>
    split at h
    next hc =>
      have hlow : 97 ≤ c.toNat := hc.1
      have hhigh : c.toNat ≤ 102 := hc.2
      cases h
      refine ⟨by omega, .inl ?_⟩
      rw [← hlower _ (by omega) (by omega), Nat.add_sub_cancel' (by omega), Char.ofNat_toNat]
    next =>
      split at h
      next hc =>
        have hlow : 65 ≤ c.toNat := hc.1
        have hhigh : c.toNat ≤ 70 := hc.2
        cases h
        refine ⟨by omega, .inr ?_⟩
        rw [← hupper _ (by omega) (by omega), Nat.add_sub_cancel' (by omega), Char.ofNat_toNat]
      next => cases h

theorem unit?_of_isHex {a b c d : Char} {m n p q : Nat} (ha : IsHex a m) (hb : IsHex b n)
    (hc : IsHex c p) (hd : IsHex d q) (rest : List Char) :
    unit? (a :: b :: c :: d :: rest) = some (((m * 16 + n) * 16 + p) * 16 + q, rest) := by
  rw [unit?, hexValue?_of_isHex ha, hexValue?_of_isHex hb, hexValue?_of_isHex hc,
    hexValue?_of_isHex hd]
  rfl

/-- A code is read from what is written for it. -/
theorem exists_isPiece_of_unit? {u : Nat} (h : unit? cs = some (u, rest)) :
    ∃ w, cs = w ++ rest ∧ IsPiece (.unit u) ('\\' :: 'u' :: w) := by
  rw [unit?.eq_def] at h
  split at h
  next a b c d cs =>
    simp only [Option.bind_eq_bind, Option.bind_eq_some_iff] at h
    obtain ⟨m, hm, n, hn, p, hp, q, hq, heq⟩ := h
    cases heq
    exact ⟨[a, b, c, d], rfl, .unit (isHex_of_hexValue? hm) (isHex_of_hexValue? hn)
      (isHex_of_hexValue? hp) (isHex_of_hexValue? hq)⟩
  next => cases h

/-- A unit is written with a backslash and a `u`, after which its code is read. -/
theorem exists_of_isPiece_unit {u : Nat} (h : IsPiece (.unit u) w) :
    ∃ ds, w = '\\' :: 'u' :: ds ∧ ∀ rest, unit? (ds ++ rest) = some (u, rest) := by
  cases h with
  | @unit a b c d m n p q ha hb hc hd =>
    exact ⟨[a, b, c, d], rfl, fun rest => unit?_of_isHex ha hb hc hd rest⟩

/-! ### Strings -/

theorem escaped?_of_mem_letters {e c : Char} (h : (e, c) ∈ letters) (rest : List Char) :
    escaped? (e :: rest) = some (some c, rest) := by
  simp only [letters, List.mem_cons, Prod.mk.injEq, List.not_mem_nil, or_false] at h
  rcases h with ⟨rfl, rfl⟩ | ⟨rfl, rfl⟩ | ⟨rfl, rfl⟩ | ⟨rfl, rfl⟩ | ⟨rfl, rfl⟩ | ⟨rfl, rfl⟩ |
    ⟨rfl, rfl⟩ | ⟨rfl, rfl⟩ <;> rfl

/-- After pieces of which the first is no unit, no second half follows. -/
theorem secondHalf?_of_char {c : Char} (h : IsPiece (.char c) w) (cs : List Char) :
    secondHalf? (w ++ cs) = none := by
  cases h with
  | plain hcontrol hquote hslash =>
    rw [List.singleton_append, secondHalf?]
    rintro cs heq
    exact hslash (List.cons.inj heq).1
  | @letter e c h =>
    have hu : ∀ p ∈ letters, p.1 ≠ 'u' := by decide
    rw [List.cons_append, List.singleton_append, secondHalf?]
    rintro cs heq
    exact hu _ h (List.cons.inj (List.cons.inj heq).2).1

theorem secondHalf?_of_unit {u : Nat} (h : IsPiece (.unit u) w) (cs : List Char) :
    secondHalf? (w ++ cs) = if IsLow u then some (u, cs) else none := by
  obtain ⟨ds, rfl, hread⟩ := exists_of_isPiece_unit h
  rw [List.cons_append, List.cons_append, secondHalf?, hread]
  rfl

/-- What is read after the code of a unit. -/
theorem escaped?_unit {u : Nat} (h : unit? cs = some (u, rest)) :
    escaped? ('u' :: cs)
      = if IsHigh u then
          match secondHalf? rest with
          | some (v, rest) =>
            some (some (Char.ofNat (0x10000 + (u - 0xD800) * 1024 + (v - 0xDC00))), rest)
          | none => some (none, rest)
        else if IsLow u then some (none, rest)
        else some (some (Char.ofNat u), rest) := by
  rw [escaped?, h]
  rfl

/-- Whether some pieces start with the second half of a pair. -/
def StartsLow (ps : List Piece) : Prop := ∃ v ps', ps = .unit v :: ps' ∧ IsLow v

theorem textOf_of_not_startsLow {u : Nat} {ps : List Piece} (hu : IsHigh u)
    (hps : ¬ StartsLow ps) : textOf (.unit u :: ps) = none := by
  rw [textOf.eq_def]
  dsimp only
  rw [if_pos hu]
  split
  next v ps => exact if_neg fun hv => hps ⟨v, ps, rfl, hv⟩
  next => rfl

theorem textOf_pair {u v : Nat} {ps : List Piece} (hu : IsHigh u) (hv : IsLow v) :
    textOf (.unit u :: .unit v :: ps) = (textOf ps).map
      (Char.ofNat (0x10000 + (u - 0xD800) * 1024 + (v - 0xDC00)) :: ·) := by
  rw [textOf, if_pos hu]
  exact if_pos hv

theorem textOf_of_not_isHigh {u : Nat} {ps : List Piece} (hu : ¬ IsHigh u) :
    textOf (.unit u :: ps)
      = if IsLow u then none else (textOf ps).map (Char.ofNat u :: ·) := by
  rw [textOf.eq_def]
  exact if_neg hu

theorem secondHalf?_of_not_startsLow {ps : List Piece} (h : IsPieces ps w) (hps : ¬ StartsLow ps) :
    secondHalf? (w ++ '"' :: rest) = none := by
  cases h with
  | nil => rfl
  | @cons p ps w ws hp _ =>
    rw [List.append_assoc]
    cases p with
    | char c => exact secondHalf?_of_char hp _
    | unit v =>
      rw [secondHalf?_of_unit hp, if_neg]
      exact fun hv => hps ⟨v, ps, rfl, hv⟩

theorem stringBody_plain {c : Char} (hcontrol : 32 ≤ c.toNat) (hquote : c ≠ '"')
    (hslash : c ≠ '\\') (fuel : Nat) (cs : List Char) :
    stringBody (fuel + 1) (c :: cs)
      = (stringBody fuel cs).map fun r => (r.1.map (c :: ·), r.2) := by
  rw [stringBody, if_neg (by omega)]
  · cases stringBody fuel cs <;> rfl
  · exact hquote
  · exact hslash

theorem stringBody_escaped {c : Option Char} (h : escaped? cs = some (c, rest)) (fuel : Nat) :
    stringBody (fuel + 1) ('\\' :: cs)
      = (stringBody fuel rest).map fun r => (c.bind fun c => r.1.map (c :: ·), r.2) := by
  rw [stringBody, h]
  simp only [Option.bind_eq_bind, Option.bind_some]
  cases stringBody fuel rest <;> rfl

/-- If what follows a unit is read, so is the unit. It may take the next one with it. -/
theorem stringBody_unit {u fuel : Nat} {ps : List Piece} {ws : List Char}
    (hu : IsPiece (.unit u) w) (hps : IsPieces ps ws)
    (hread : ∀ ps' ws', IsPieces ps' ws' → ws'.length ≤ ws.length →
      stringBody fuel (ws' ++ '"' :: rest) = some (textOf ps', rest)) :
    stringBody (fuel + 1) (w ++ (ws ++ '"' :: rest)) = some (textOf (.unit u :: ps), rest) := by
  obtain ⟨ds, rfl, hunit⟩ := exists_of_isPiece_unit hu
  have hescaped := escaped?_unit (hunit (ws ++ '"' :: rest))
  rw [List.cons_append, List.cons_append]
  by_cases hhigh : IsHigh u
  · rw [if_pos hhigh] at hescaped
    by_cases hlow : StartsLow ps
    · obtain ⟨v, ps, rfl, hv⟩ := hlow
      cases hps with
      | @cons _ _ w' ws' hunit' hps =>
        rw [List.append_assoc, secondHalf?_of_unit hunit', if_pos hv] at hescaped
        rw [List.append_assoc, stringBody_escaped hescaped, hread ps ws' hps (by simp),
          textOf_pair hhigh hv]
        rfl
    · rw [secondHalf?_of_not_startsLow hps hlow] at hescaped
      rw [stringBody_escaped hescaped, hread ps ws hps (Nat.le_refl _),
        textOf_of_not_startsLow hhigh hlow]
      rfl
  · rw [if_neg hhigh] at hescaped
    rw [textOf_of_not_isHigh hhigh]
    by_cases hlow : IsLow u
    · rw [if_pos hlow] at hescaped ⊢
      rw [stringBody_escaped hescaped, hread ps ws hps (Nat.le_refl _)]
      rfl
    · rw [if_neg hlow] at hescaped ⊢
      rw [stringBody_escaped hescaped, hread ps ws hps (Nat.le_refl _)]
      rfl

/-- **Pieces are read up to the closing quote.** -/
theorem stringBody_append {ps : List Piece} {fuel : Nat} (h : IsPieces ps w)
    (hfuel : w.length < fuel) :
    stringBody fuel (w ++ '"' :: rest) = some (textOf ps, rest) := by
  induction fuel generalizing ps w with
  | zero => cases hfuel
  | succ fuel ih =>
    cases h with
    | nil => rfl
    | @cons p ps w ws hp hps =>
      have hlength : w ≠ [] := by cases hp <;> exact nofun
      have hshort : ws.length < fuel := by
        have := List.length_pos_iff.mpr hlength
        rw [List.length_append] at hfuel
        omega
      rw [List.append_assoc]
      cases p with
      | unit u =>
        exact stringBody_unit hp hps fun ps' ws' hps' hle =>
          ih hps' (Nat.lt_of_le_of_lt hle hshort)
      | char c =>
        cases hp with
        | plain hcontrol hquote hslash =>
          rw [List.singleton_append, stringBody_plain hcontrol hquote hslash, ih hps hshort]
          rfl
        | letter hletter =>
          rw [List.cons_append, List.singleton_append,
            stringBody_escaped (escaped?_of_mem_letters hletter _), ih hps hshort]
          rfl

theorem string_append {s : Option String} (h : IsString s ('"' :: w)) (rest : List Char) :
    string (w ++ rest) = some (s, rest) := by
  cases h with
  | @mk ps w h =>
    have hfuel : w.length < (w ++ '"' :: rest).length + 1 := by
      rw [List.length_append]
      omega
    rw [string, List.append_assoc, List.singleton_append, stringBody_append h hfuel]
    rfl

/-! #### The other direction -/

/-- What an escape may be: a letter, or the code of a unit. -/
theorem cases_of_escaped? {c : Option Char} (h : escaped? cs = some (c, rest)) :
    (∃ e c', cs = e :: rest ∧ c = some c' ∧ (e, c') ∈ letters) ∨
    ∃ u ds cs', cs = 'u' :: cs' ∧ unit? cs' = some (u, ds) := by
  rw [escaped?.eq_def] at h
  split at h
  case h_9 cs =>
    simp only [Option.bind_eq_bind, Option.bind_eq_some_iff, Prod.exists] at h
    obtain ⟨u, ds, hu, -⟩ := h
    exact .inr ⟨u, ds, cs, rfl, hu⟩
  case h_10 => cases h
  all_goals
    cases h
    exact .inl ⟨_, _, rfl, rfl, by decide⟩

theorem isLow_of_secondHalf? {v : Nat} (h : secondHalf? cs = some (v, rest)) :
    IsLow v ∧ ∃ w, cs = w ++ rest ∧ IsPiece (.unit v) w := by
  rw [secondHalf?.eq_def] at h
  split at h
  next cs =>
    simp only [Option.bind_eq_bind, Option.bind_eq_some_iff, Prod.exists] at h
    obtain ⟨u, rest', hu, hlow⟩ := h
    split at hlow
    next hv =>
      cases hlow
      obtain ⟨w, rfl, hw⟩ := exists_isPiece_of_unit? hu
      exact ⟨hv, _, rfl, hw⟩
    next => cases hlow
  next => cases h

/-- What is read after a backslash, followed by pieces, is pieces. -/
theorem exists_pieces_of_escaped? {c : Option Char} {ps : List Piece}
    (h : escaped? cs = some (c, w ++ '"' :: rest)) (hps : IsPieces ps w) :
    ∃ ps' w', IsPieces ps' w' ∧ '\\' :: cs = w' ++ '"' :: rest ∧
      (c.bind fun c => (textOf ps).map (c :: ·)) = textOf ps' := by
  rcases cases_of_escaped? h with ⟨e, c, rfl, rfl, hletter⟩ | ⟨u, ds, cs, rfl, hunit⟩
  · exact ⟨_, _, .cons (.letter hletter) hps, rfl, rfl⟩
  rw [escaped?_unit hunit] at h
  obtain ⟨w₁, rfl, hu⟩ := exists_isPiece_of_unit? hunit
  split at h
  next hhigh =>
    split at h
    next v _ hsecond =>
      cases h
      obtain ⟨hv, w₂, rfl, hw₂⟩ := isLow_of_secondHalf? hsecond
      exact ⟨_, _, .cons hu (.cons hw₂ hps), by simp, (textOf_pair hhigh hv).symm⟩
    next hsecond =>
      cases h
      have hlow : ¬ StartsLow ps := by
        rintro ⟨v, ps, rfl, hv⟩
        cases hps with
        | cons hunit' _ =>
          rw [List.append_assoc, secondHalf?_of_unit hunit', if_pos hv] at hsecond
          cases hsecond
      exact ⟨_, _, .cons hu hps, by simp, (textOf_of_not_startsLow hhigh hlow).symm⟩
  next hhigh =>
    split at h
    next hlow =>
      cases h
      exact ⟨_, _, .cons hu hps, by simp, by rw [textOf_of_not_isHigh hhigh, if_pos hlow]; rfl⟩
    next hlow =>
      cases h
      exact ⟨_, _, .cons hu hps, by simp, by rw [textOf_of_not_isHigh hhigh, if_neg hlow]; rfl⟩

theorem exists_pieces_of_stringBody {s : Option (List Char)} {fuel : Nat}
    (h : stringBody fuel cs = some (s, rest)) :
    ∃ ps w, IsPieces ps w ∧ cs = w ++ '"' :: rest ∧ s = textOf ps := by
  induction fuel generalizing cs s with
  | zero =>
    rw [stringBody] at h
    cases h
  | succ fuel ih =>
    rw [stringBody.eq_def] at h
    split at h
    · cases h
    · cases h
    · cases h
      exact ⟨[], [], .nil, rfl, rfl⟩
    next fuel' cs heq =>
      cases heq
      simp only [Option.bind_eq_bind, Option.bind_eq_some_iff, Prod.exists] at h
      obtain ⟨c, cs', hescaped, s', rest', hbody, heq⟩ := h
      cases heq
      obtain ⟨ps, w, hps, rfl, rfl⟩ := ih hbody
      obtain ⟨ps', w', hps', hcs, htext⟩ := exists_pieces_of_escaped? hescaped hps
      exact ⟨ps', w', hps', hcs, htext⟩
    next fuel' c cs hquote hslash heq =>
      cases heq
      split at h
      · cases h
      next hcontrol =>
        simp only [Option.bind_eq_bind, Option.bind_eq_some_iff, Prod.exists] at h
        obtain ⟨s', rest', hbody, heq⟩ := h
        cases heq
        obtain ⟨ps, w, hps, rfl, rfl⟩ := ih hbody
        exact ⟨_, _, .cons (.plain (by omega) hquote hslash) hps, rfl, rfl⟩

theorem isString_of_string {s : Option String} (h : string cs = some (s, rest)) :
    ∃ w, cs = w ++ rest ∧ IsString s ('"' :: w) := by
  obtain ⟨⟨text, rest'⟩, hbody, heq⟩ := Option.map_eq_some_iff.mp h
  cases heq
  obtain ⟨ps, w, hps, rfl, rfl⟩ := exists_pieces_of_stringBody hbody
  exact ⟨w ++ ['"'], by simp, .mk hps⟩

end Reader

end Popularity.Json
