import Popularity.Proofs.Decimal
import Popularity.Proofs.Json.Reading

/-!
# The compact form

A value that consists of texts and numbers can be written without blanks, and what is written is
JSON for that value. Characters in strings are escaped where they must be, and an escape is never
half of a pair: control characters are far from those.

Whole numbers are written in decimal, which is the only way to write them as JSON but for points,
powers of ten, and a sign before a zero.

## Main definitions

* `Json.Legible` — all numbers are numbers, all strings are texts

## Main results

* `Json.written_compact`, `Json.read?_compactText`
* `Json.isNumber_ofInt`, `Json.eq_ofInt_of_readSigned?`
-/

namespace Popularity.Json

open Reader

variable {w : List Char} {n : Int}

/-! ### Strings -/

/-- What a character stands in a string as: its code is given if it is a control character without
a letter. -/
def pieceOf (c : Char) : Piece :=
  if c.toNat < 32 ∧ c ∉ letters.map Prod.snd then .unit c.toNat else .char c

theorem isHex_hexDigit {d : Nat} (hd : d < 16) : IsHex (hexDigit d) d := ⟨hd, .inl rfl⟩

theorem isPiece_escape_of_mem {e c : Char} (h : (e, c) ∈ letters) :
    IsPiece (pieceOf c) ['\\', e] := by
  rw [pieceOf, if_neg fun hc => hc.2 (List.mem_map_of_mem h)]
  exact .letter h

theorem isPiece_escape (c : Char) : IsPiece (pieceOf c) (escape c) := by
  by_cases hletter : c ∈ ['"', '\\', '\n', '\r', '\t', '\x08', '\x0c']
  · simp only [List.mem_cons, List.not_mem_nil, or_false] at hletter
    rcases hletter with rfl | rfl | rfl | rfl | rfl | rfl | rfl <;>
      exact isPiece_escape_of_mem (by decide)
  simp only [List.mem_cons, List.not_mem_nil, or_false, not_or] at hletter
  obtain ⟨hquote, hslash, hn, hr, ht, hb, hf⟩ := hletter
  simp only [escape, if_neg hquote, if_neg hslash, if_neg hn, if_neg hr, if_neg ht, if_neg hb,
    if_neg hf]
  by_cases hcontrol : c.toNat < 32
  · have hsolidus : c ≠ '/' := by rintro rfl; exact absurd hcontrol (by decide)
    have hunit : c.toNat = ((0 * 16 + 0) * 16 + c.toNat / 16) * 16 + c.toNat % 16 := by omega
    rw [if_pos hcontrol, pieceOf, if_pos ⟨hcontrol, by simp [letters, *]⟩]
    nth_rewrite 1 [hunit]
    exact .unit (isHex_hexDigit (by decide)) (isHex_hexDigit (by decide))
      (isHex_hexDigit (by omega)) (isHex_hexDigit (by omega))
  · rw [if_neg hcontrol, pieceOf, if_neg fun h => hcontrol h.1]
    exact .plain (Nat.not_lt.mp hcontrol) hquote hslash

theorem textOf_map_pieceOf (cs : List Char) : textOf (cs.map pieceOf) = some cs := by
  induction cs with
  | nil => rfl
  | cons c cs ih =>
    rw [List.map_cons, pieceOf]
    split
    next hc =>
      have hhigh : ¬ IsHigh c.toNat := fun h => by have := h.1; omega
      have hlow : ¬ IsLow c.toNat := fun h => by have := h.1; omega
      rw [textOf_of_not_isHigh hhigh, if_neg hlow, ih, Char.ofNat_toNat]
      rfl
    next => rw [textOf, ih]; rfl

theorem isString_quoted (s : String) : IsString (some s) (quoted s) := by
  have hpieces : ∀ cs : List Char, IsPieces (cs.map pieceOf) (cs.flatMap escape) := by
    intro cs
    induction cs with
    | nil => exact .nil
    | cons c cs ih => exact .cons (isPiece_escape c) ih
  have htext : (textOf (s.toList.map pieceOf)).map String.ofList = some s := by
    rw [textOf_map_pieceOf, Option.map_some, String.ofList_toList]
  exact htext ▸ .mk (hpieces s.toList)

/-! ### Numbers -/

theorem isNumber_ofInt (n : Int) : IsNumber (Decimal.ofInt n) := by
  have hunsigned : ∀ m, IsUnsigned (Decimal.digits m) := by
    intro m
    have hwhole : IsWhole (Decimal.digits m) := by
      by_cases hm : m = 0
      · rw [hm, Decimal.digits]
        exact .zero
      · exact .digits ⟨Decimal.digits_ne_nil m, fun _ => Decimal.isDigit_of_mem_digits⟩
          (Decimal.head?_digits hm)
    simpa using IsUnsigned.mk hwhole .none .none
  cases n with
  | ofNat m => exact .positive (hunsigned m)
  | negSucc m => exact .negative (hunsigned (m + 1))

/-- Where nothing but digits may stand, there is neither a point nor a power of ten. -/
theorem isWhole_of_isDigit (hw : IsUnsigned w) (hdigits : ∀ c ∈ w, c.isDigit = true) :
    IsWhole w := by
  cases hw with
  | @mk w f e hw hf he =>
    simp only [List.mem_append] at hdigits
    have hf : f = [] := by
      cases hf with
      | none => rfl
      | digits => cases hdigits '.' (.inl (.inr List.mem_cons_self))
    have he : e = [] := by
      cases he with
      | none => rfl
      | bare he | signed he =>
        rcases he with rfl | rfl <;> cases hdigits _ (.inr List.mem_cons_self)
    rwa [hf, he, List.append_nil, List.append_nil]

theorem eq_digits_of_readNat? {m : Nat} (hw : IsUnsigned w) (h : Decimal.readNat? w = some m) :
    w = Decimal.digits m := by
  rw [Decimal.readNat?] at h
  split at h
  next hall =>
    cases h
    simp only [Bool.and_eq_true, List.all_eq_true] at hall
    cases isWhole_of_isDigit hw hall.2 with
    | zero => exact (Decimal.digits_value (by simp) (by simp) (.inl rfl)).symm
    | digits hds hhead => exact (Decimal.digits_value hds.1 hds.2 (.inr hhead)).symm
  next => cases h

/-- **A whole number can be written in one way only**, but for zero. -/
theorem eq_ofInt_of_readSigned? (hw : IsNumber w) (hzero : w ≠ ['-', '0'])
    (h : Decimal.readSigned? w = some n) : w = Decimal.ofInt n := by
  cases hw with
  | positive hw =>
    obtain ⟨d, ds, hcons, hd⟩ := exists_eq_cons_of_isUnsigned hw
    rw [Decimal.readSigned?.eq_def] at h
    split at h
    next => cases hcons; cases hd
    next => cases hcons; cases hd
    next =>
      cases hread : Decimal.readNat? w with
      | none => rw [hread] at h; cases h
      | some m =>
        rw [hread] at h
        cases h
        exact eq_digits_of_readNat? hw hread
  | @negative w hw =>
    rw [Decimal.readSigned?] at h
    cases hread : Decimal.readNat? w with
    | none => rw [hread] at h; cases h
    | some m =>
      rw [hread] at h
      cases h
      have hw := eq_digits_of_readNat? hw hread
      cases m with
      | zero =>
        rw [hw, Decimal.digits] at hzero
        exact absurd rfl hzero
      | succ m => rw [hw]; rfl

/-! ### Values -/

mutual

/-- Whether all numbers are numbers and all strings are texts. -/
def Legible : Json → Prop
  | .null | .bool _ => True
  | .number w => IsNumber w
  | .string s => s.isSome
  | .array vs => LegibleElements vs
  | .object ms => LegibleMembers ms

/-- The same for the elements of an array. -/
def LegibleElements : List Json → Prop
  | [] => True
  | v :: vs => Legible v ∧ LegibleElements vs

/-- The same for the members of an object. -/
def LegibleMembers : List (Option String × Json) → Prop
  | [] => True
  | (n, v) :: ms => n.isSome ∧ Legible v ∧ LegibleMembers ms

end

theorem isString_quotedOr {s : Option String} (hs : s.isSome) : IsString s (quotedOr s) := by
  obtain ⟨s, rfl⟩ := Option.isSome_iff_exists.mp hs
  exact isString_quoted s

mutual

/-- **The compact form of a value is JSON for it.** -/
theorem written_compact : ∀ {v : Json}, v.Legible → Written (.value v) v.compact
  | .null, _ => .null
  | .bool true, _ => .true
  | .bool false, _ => .false
  | .number _, h => .number h
  | .string _, h => .string (isString_quotedOr h)
  | .array [], _ => .emptyArray blanks_nil
  | .array (_ :: _), h =>
    .array blanks_nil blanks_nil (written_compact h.1) (written_compactElements h.2)
  | .object [], _ => .emptyObject blanks_nil
  | .object ((n, v) :: ms), h => by
    have hm : Written (.member (n, v)) (quotedOr n ++ ':' :: v.compact) :=
      .member (isString_quotedOr h.1) blanks_nil blanks_nil (written_compact h.2.1)
    have hobject := Written.object blanks_nil blanks_nil hm (written_compactMembers h.2.2)
    simpa [compact] using hobject

theorem written_compactElements :
    ∀ {vs : List Json}, LegibleElements vs → Written (.elements vs) (compactElements vs)
  | [], _ => .lastElement
  | _ :: _, h =>
    .nextElement blanks_nil blanks_nil (written_compact h.1) (written_compactElements h.2)

theorem written_compactMembers : ∀ {ms : List (Option String × Json)}, LegibleMembers ms →
    Written (.members ms) (compactMembers ms)
  | [], _ => .lastMember
  | (n, v) :: ms, h => by
    have hm : Written (.member (n, v)) (quotedOr n ++ ':' :: v.compact) :=
      .member (isString_quotedOr h.1) blanks_nil blanks_nil (written_compact h.2.1)
    have hmembers := Written.nextMember blanks_nil blanks_nil hm (written_compactMembers h.2.2)
    simpa [compactMembers] using hmembers

end

theorem isText_compactText {v : Json} (h : v.Legible) : IsText v v.compactText.toList := by
  have htext := IsText.mk blanks_nil (written_compact h) blanks_nil
  rw [compactText, String.toList_ofList]
  simpa using htext

/-- **What is written without blanks is read.** -/
theorem read?_compactText {v : Json} (h : v.Legible) : read? v.compactText = some v :=
  readChars?_eq_some_iff.mpr (isText_compactText h)

end Popularity.Json
