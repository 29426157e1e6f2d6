import Popularity.Json.Basic

/-!
# The grammar of JSON

Which texts are JSON, and which value each of them is written for, is said here without a reader.
A value may be written in many ways: between any two tokens there may be blanks, and a character in
a string may stand for itself, be escaped by a letter, or be given by its code.

Codes in strings are units of UTF-16, so a character beyond the first plane takes two of them. A
half of such a pair that stands alone is no text, but the grammar does not mind. A string with one
is a string, and what it is written for is `none`.

## Main definitions

* `Json.Blanks`, `Json.IsNumber`
* `Json.Piece`, `Json.IsPieces`, `Json.textOf` — what a string consists of, and its text
* `Json.Written` — values and the parts of arrays and objects
* `Json.IsText` — a value with blanks around it
-/

namespace Popularity.Json

/-! ### Blanks and numbers -/

/-- Whether characters may stand between tokens. -/
def Blanks (cs : List Char) : Prop := ∀ c ∈ cs, c = ' ' ∨ c = '\n' ∨ c = '\t' ∨ c = '\r'

/-- At least one digit. -/
def IsDigits (ds : List Char) : Prop := ds ≠ [] ∧ ∀ d ∈ ds, d.isDigit = true

/-- The whole part of a number has no zeros in front. -/
inductive IsWhole : List Char → Prop
  | zero : IsWhole ['0']
  | digits {ds : List Char} (hds : IsDigits ds) (hhead : ds.head? ≠ some '0') : IsWhole ds

/-- Digits after a point, or nothing. -/
inductive IsFraction : List Char → Prop
  | none : IsFraction []
  | digits {ds : List Char} (hds : IsDigits ds) : IsFraction ('.' :: ds)

/-- A power of ten, or nothing. -/
inductive IsExponent : List Char → Prop
  | none : IsExponent []
  | bare {e : Char} {ds : List Char} (he : e = 'e' ∨ e = 'E') (hds : IsDigits ds) :
    IsExponent (e :: ds)
  | signed {e s : Char} {ds : List Char} (he : e = 'e' ∨ e = 'E') (hs : s = '+' ∨ s = '-')
    (hds : IsDigits ds) : IsExponent (e :: s :: ds)

/-- A number without its sign. -/
inductive IsUnsigned : List Char → Prop
  | mk {w f e : List Char} (hw : IsWhole w) (hf : IsFraction f) (he : IsExponent e) :
    IsUnsigned (w ++ f ++ e)

/-- A number. It may have a minus sign, but no plus sign. -/
inductive IsNumber : List Char → Prop
  | positive {w : List Char} (hw : IsUnsigned w) : IsNumber w
  | negative {w : List Char} (hw : IsUnsigned w) : IsNumber ('-' :: w)

/-! ### Strings -/

/-- What a string consists of: characters, and units of UTF-16 that are given by their codes. -/
inductive Piece where
  | char (c : Char)
  | unit (u : Nat)

/-- The letters that stand for characters after a backslash. -/
def letters : List (Char × Char) :=
  [('"', '"'), ('\\', '\\'), ('/', '/'), ('b', '\x08'), ('f', '\x0c'), ('n', '\n'), ('r', '\r'),
    ('t', '\t')]

/-- Whether a character is a hexadecimal digit, in either case. -/
def IsHex (c : Char) (d : Nat) : Prop := d < 16 ∧ (c = hexDigit d ∨ c = (hexDigit d).toUpper)

/-- How one piece may be written. -/
inductive IsPiece : Piece → List Char → Prop
  | plain {c : Char} (hcontrol : 32 ≤ c.toNat) (hquote : c ≠ '"') (hslash : c ≠ '\\') :
    IsPiece (.char c) [c]
  | letter {e c : Char} (h : (e, c) ∈ letters) : IsPiece (.char c) ['\\', e]
  | unit {a b c d : Char} {m n p q : Nat} (ha : IsHex a m) (hb : IsHex b n) (hc : IsHex c p)
    (hd : IsHex d q) : IsPiece (.unit (((m * 16 + n) * 16 + p) * 16 + q)) ['\\', 'u', a, b, c, d]

/-- How pieces may be written one after another. -/
inductive IsPieces : List Piece → List Char → Prop
  | nil : IsPieces [] []
  | cons {p : Piece} {ps : List Piece} {w ws : List Char} (hp : IsPiece p w)
    (hps : IsPieces ps ws) : IsPieces (p :: ps) (w ++ ws)

/-- The first halves of pairs. -/
def IsHigh (u : Nat) : Prop := 0xD800 ≤ u ∧ u < 0xDC00

/-- The second halves of pairs. -/
def IsLow (u : Nat) : Prop := 0xDC00 ≤ u ∧ u < 0xE000

instance (u : Nat) : Decidable (IsHigh u) := inferInstanceAs (Decidable (_ ∧ _))

instance (u : Nat) : Decidable (IsLow u) := inferInstanceAs (Decidable (_ ∧ _))

/-- The text of some pieces; `none` if half of a pair is without the other half. -/
def textOf : List Piece → Option (List Char)
  | [] => some []
  | .char c :: ps => (textOf ps).map (c :: ·)
  | .unit u :: ps =>
    if IsHigh u then
      match ps with
      | .unit v :: ps =>
        if IsLow v then
          (textOf ps).map (Char.ofNat (0x10000 + (u - 0xD800) * 1024 + (v - 0xDC00)) :: ·)
        else none
      | _ => none
    else if IsLow u then none
    else (textOf ps).map (Char.ofNat u :: ·)

/-- A string between quotes. -/
inductive IsString : Option String → List Char → Prop
  | mk {ps : List Piece} {w : List Char} (h : IsPieces ps w) :
    IsString ((textOf ps).map String.ofList) ('"' :: (w ++ ['"']))

/-! ### Values -/

/-- The parts that arrays and objects are made of. The elements and members after the first go on
with a comma each and end with the closing bracket or brace. -/
inductive Part where
  | value (v : Json)
  | elements (vs : List Json)
  | member (m : Option String × Json)
  | members (ms : List (Option String × Json))

/-- How a part may be written, from its first token to its last. -/
inductive Written : Part → List Char → Prop
  | null : Written (.value .null) ['n', 'u', 'l', 'l']
  | true : Written (.value (.bool true)) ['t', 'r', 'u', 'e']
  | false : Written (.value (.bool false)) ['f', 'a', 'l', 's', 'e']
  | number {w : List Char} (hw : IsNumber w) : Written (.value (.number w)) w
  | string {s : Option String} {w : List Char} (hw : IsString s w) : Written (.value (.string s)) w
  | emptyArray {b : List Char} (hb : Blanks b) : Written (.value (.array [])) ('[' :: (b ++ [']']))
  | array {v : Json} {vs : List Json} {b b' w ws : List Char} (hb : Blanks b) (hb' : Blanks b')
    (hv : Written (.value v) w) (hvs : Written (.elements vs) ws) :
    Written (.value (.array (v :: vs))) ('[' :: (b ++ (w ++ (b' ++ ws))))
  | lastElement : Written (.elements []) [']']
  | nextElement {v : Json} {vs : List Json} {b b' w ws : List Char} (hb : Blanks b)
    (hb' : Blanks b') (hv : Written (.value v) w) (hvs : Written (.elements vs) ws) :
    Written (.elements (v :: vs)) (',' :: (b ++ (w ++ (b' ++ ws))))
  | emptyObject {b : List Char} (hb : Blanks b) :
    Written (.value (.object [])) ('\x7b' :: (b ++ ['\x7d']))
  | object {m : Option String × Json} {ms : List (Option String × Json)} {b b' w ws : List Char}
    (hb : Blanks b) (hb' : Blanks b') (hm : Written (.member m) w)
    (hms : Written (.members ms) ws) :
    Written (.value (.object (m :: ms))) ('\x7b' :: (b ++ (w ++ (b' ++ ws))))
  | member {n : Option String} {v : Json} {b b' w ws : List Char} (hn : IsString n w)
    (hb : Blanks b) (hb' : Blanks b') (hv : Written (.value v) ws) :
    Written (.member (n, v)) (w ++ (b ++ ':' :: (b' ++ ws)))
  | lastMember : Written (.members []) ['\x7d']
  | nextMember {m : Option String × Json} {ms : List (Option String × Json)}
    {b b' w ws : List Char} (hb : Blanks b) (hb' : Blanks b') (hm : Written (.member m) w)
    (hms : Written (.members ms) ws) :
    Written (.members (m :: ms)) (',' :: (b ++ (w ++ (b' ++ ws))))

/-- A value as the whole of a text, with blanks around it. -/
inductive IsText : Json → List Char → Prop
  | mk {v : Json} {b w b' : List Char} (hb : Blanks b) (hv : Written (.value v) w)
    (hb' : Blanks b') : IsText v (b ++ (w ++ b'))

theorem IsText.written {v : Json} {cs : List Char} (h : IsText v cs) :
    ∃ w, Written (.value v) w := by
  cases h with
  | mk _ hv => exact ⟨_, hv⟩

/-! ### What values are made of -/

theorem isNumber_of_written {w x : List Char} (h : Written (.value (.number x)) w) :
    IsNumber x := by
  cases h with
  | number hw => exact hw

theorem exists_written_of_mem_elements {v : Json} {vs : List Json} {w : List Char} (hv : v ∈ vs)
    (h : Written (.elements vs) w) : ∃ w', Written (.value v) w' := by
  induction vs generalizing w with
  | nil => cases hv
  | cons u us ih =>
    cases h with
    | nextElement _ _ hu hus =>
      rcases List.mem_cons.mp hv with rfl | hv
      · exact ⟨_, hu⟩
      · exact ih hv hus

theorem exists_written_of_mem_members {m : Option String × Json}
    {ms : List (Option String × Json)} {w : List Char} (hm : m ∈ ms)
    (h : Written (.members ms) w) : ∃ w', Written (.member m) w' := by
  induction ms generalizing w with
  | nil => cases hm
  | cons n ns ih =>
    cases h with
    | nextMember _ _ hn hns =>
      rcases List.mem_cons.mp hm with rfl | hm
      · exact ⟨_, hn⟩
      · exact ih hm hns

/-- The elements of an array are written in it. -/
theorem exists_written_of_mem_array {v : Json} {vs : List Json} {w : List Char} (hv : v ∈ vs)
    (h : Written (.value (.array vs)) w) : ∃ w', Written (.value v) w' := by
  cases h with
  | emptyArray => cases hv
  | array _ _ hu hus =>
    rcases List.mem_cons.mp hv with rfl | hv
    · exact ⟨_, hu⟩
    · exact exists_written_of_mem_elements hv hus

/-- The values of the members of an object are written in it. -/
theorem exists_written_of_mem_object {m : Option String × Json}
    {ms : List (Option String × Json)} {w : List Char} (hm : m ∈ ms)
    (h : Written (.value (.object ms)) w) : ∃ w', Written (.value m.2) w' := by
  have hmember : ∃ w', Written (.member m) w' := by
    cases h with
    | emptyObject => cases hm
    | object _ _ hn hns =>
      rcases List.mem_cons.mp hm with rfl | hm
      · exact ⟨_, hn⟩
      · exact exists_written_of_mem_members hm hns
  obtain ⟨w', hm⟩ := hmember
  cases hm with
  | member _ _ _ hv => exact ⟨_, hv⟩

end Popularity.Json
