import Popularity.Json.Basic

/-!
# Reading JSON

`Json.read?` accepts exactly the texts of the grammar: one value, with blanks, tabs and line ends
between tokens and around the value, nothing else after it. Numbers are kept as written and so
have no size; arrays and objects may nest as deep as they like.

Each reader takes the characters that are left and returns its value with those it did not need.
Nesting is bounded by the length of the text, which is the fuel that `read?` supplies.

## Main definitions

* `Json.Reader.value` and the readers it is made of
* `Json.read?` — a whole text
-/

namespace Popularity.Json

namespace Reader

/-! ### Blanks and words -/

/-- What may stand between tokens. -/
def isBlank (c : Char) : Bool := c = ' ' || c = '\n' || c = '\t' || c = '\r'

/-- The text after leading blanks. -/
def skip (cs : List Char) : List Char := cs.dropWhile isBlank

/-- The text after `word`, if it starts so. -/
def word? : List Char → List Char → Option (List Char)
  | [], cs => some cs
  | w :: ws, c :: cs => if w = c then word? ws cs else none
  | _ :: _, [] => none

/-! ### Strings -/

/-- The value of a hexadecimal digit of either case. -/
def hexValue? (c : Char) : Option Nat :=
  if '0' ≤ c ∧ c ≤ '9' then some (c.toNat - 48)
  else if 'a' ≤ c ∧ c ≤ 'f' then some (c.toNat - 87)
  else if 'A' ≤ c ∧ c ≤ 'F' then some (c.toNat - 55)
  else none

/-- Four hexadecimal digits. -/
def unit? : List Char → Option (Nat × List Char)
  | a :: b :: c :: d :: cs => do
    let a ← hexValue? a
    let b ← hexValue? b
    let c ← hexValue? c
    let d ← hexValue? d
    return (((a * 16 + b) * 16 + c) * 16 + d, cs)
  | _ => none

/-- The code of a surrogate pair's second half, if the text goes on with one. -/
def secondHalf? : List Char → Option (Nat × List Char)
  | '\\' :: 'u' :: cs => do
    let (u, rest) ← unit? cs
    if 0xDC00 ≤ u ∧ u < 0xE000 then some (u, rest) else none
  | _ => none

/-- What an escape stands for, after its backslash: a character, or `none` for half of a pair. -/
def escaped? : List Char → Option (Option Char × List Char)
  | '"' :: cs => some (some '"', cs)
  | '\\' :: cs => some (some '\\', cs)
  | '/' :: cs => some (some '/', cs)
  | 'b' :: cs => some (some '\x08', cs)
  | 'f' :: cs => some (some '\x0c', cs)
  | 'n' :: cs => some (some '\n', cs)
  | 'r' :: cs => some (some '\r', cs)
  | 't' :: cs => some (some '\t', cs)
  | 'u' :: cs => do
    let (u, rest) ← unit? cs
    if 0xD800 ≤ u ∧ u < 0xDC00 then
      match secondHalf? rest with
      | some (v, rest) =>
        some (some (Char.ofNat (0x10000 + (u - 0xD800) * 1024 + (v - 0xDC00))), rest)
      | none => some (none, rest)
    else if 0xDC00 ≤ u ∧ u < 0xE000 then some (none, rest)
    else some (some (Char.ofNat u), rest)
  | _ => none

/-- The rest of a string, up to and including the closing quote. The characters are `none` once
half of a pair has been met. -/
def stringBody (fuel : Nat) (cs : List Char) : Option (Option (List Char) × List Char) :=
  match fuel, cs with
  | 0, _ => none
  | _, [] => none
  | _, '"' :: rest => some (some [], rest)
  | fuel + 1, '\\' :: rest => do
    let (c, rest) ← escaped? rest
    let (s, rest) ← stringBody fuel rest
    return (c.bind fun c => s.map (c :: ·), rest)
  | fuel + 1, c :: rest =>
    if c.toNat < 32 then none
    else do
      let (s, rest) ← stringBody fuel rest
      return (s.map (c :: ·), rest)

/-- A string after its opening quote. -/
def string (cs : List Char) : Option (Option String × List Char) :=
  (stringBody (cs.length + 1) cs).map fun (s, rest) => (s.map String.ofList, rest)

/-! ### Numbers -/

/-- At least one digit. -/
def digits1 (cs : List Char) : Option (List Char × List Char) :=
  let (ds, rest) := cs.span Char.isDigit
  if ds.isEmpty then none else some (ds, rest)

/-- The whole part: a zero alone, or digits that do not start with one. -/
def wholePart : List Char → Option (List Char × List Char)
  | '0' :: cs => some (['0'], cs)
  | cs => digits1 cs

/-- The digits after a point, if one stands there. -/
def fractionPart : List Char → Option (List Char × List Char)
  | '.' :: cs => (digits1 cs).map fun (ds, rest) => ('.' :: ds, rest)
  | cs => some ([], cs)

/-- The power of ten, if one stands there. -/
def exponentPart : List Char → Option (List Char × List Char)
  | [] => some ([], [])
  | e :: cs =>
    if e = 'e' ∨ e = 'E' then
      match cs with
      | '+' :: cs => (digits1 cs).map fun (ds, rest) => (e :: '+' :: ds, rest)
      | '-' :: cs => (digits1 cs).map fun (ds, rest) => (e :: '-' :: ds, rest)
      | cs => (digits1 cs).map fun (ds, rest) => (e :: ds, rest)
    else some ([], e :: cs)

/-- A number without its sign. -/
def unsigned (cs : List Char) : Option (List Char × List Char) := do
  let (w, cs) ← wholePart cs
  let (f, cs) ← fractionPart cs
  let (e, cs) ← exponentPart cs
  return (w ++ f ++ e, cs)

/-- A number. -/
def number : List Char → Option (List Char × List Char)
  | '-' :: cs => (unsigned cs).map fun (w, rest) => ('-' :: w, rest)
  | cs => unsigned cs

/-! ### Values -/

mutual

/-- One value, after leading blanks. -/
def value (fuel : Nat) (cs : List Char) : Option (Json × List Char) :=
  match fuel with
  | 0 => none
  | fuel + 1 =>
    match skip cs with
    | 'n' :: rest => (word? "ull".toList rest).map (.null, ·)
    | 't' :: rest => (word? "rue".toList rest).map (.bool true, ·)
    | 'f' :: rest => (word? "alse".toList rest).map (.bool false, ·)
    | '"' :: rest => (string rest).map fun (s, rest) => (.string s, rest)
    | '[' :: rest =>
      match skip rest with
      | ']' :: rest => some (.array [], rest)
      | rest => do
        let (v, rest) ← value fuel rest
        let (vs, rest) ← elements fuel rest
        return (.array (v :: vs), rest)
    | '\x7b' :: rest =>
      match skip rest with
      | '\x7d' :: rest => some (.object [], rest)
      | rest => do
        let (m, rest) ← member fuel rest
        let (ms, rest) ← members fuel rest
        return (.object (m :: ms), rest)
    | rest => (number rest).map fun (w, rest) => (.number w, rest)

/-- The elements after the first, up to the closing bracket. -/
def elements (fuel : Nat) (cs : List Char) : Option (List Json × List Char) :=
  match fuel with
  | 0 => none
  | fuel + 1 =>
    match skip cs with
    | ']' :: rest => some ([], rest)
    | ',' :: rest => do
      let (v, rest) ← value fuel rest
      let (vs, rest) ← elements fuel rest
      return (v :: vs, rest)
    | _ => none

/-- A name, a colon and a value. -/
def member (fuel : Nat) (cs : List Char) : Option ((Option String × Json) × List Char) :=
  match fuel with
  | 0 => none
  | fuel + 1 =>
    match skip cs with
    | '"' :: rest => do
      let (n, rest) ← string rest
      match skip rest with
      | ':' :: rest => do
        let (v, rest) ← value fuel rest
        return ((n, v), rest)
      | _ => none
    | _ => none

/-- The members after the first, up to the closing brace. -/
def members (fuel : Nat) (cs : List Char) : Option (List (Option String × Json) × List Char) :=
  match fuel with
  | 0 => none
  | fuel + 1 =>
    match skip cs with
    | '\x7d' :: rest => some ([], rest)
    | ',' :: rest => do
      let (m, rest) ← member fuel rest
      let (ms, rest) ← members fuel rest
      return (m :: ms, rest)
    | _ => none

end

end Reader

/-- The value that a text is written for. -/
def readChars? (cs : List Char) : Option Json := do
  let (v, rest) ← Reader.value (2 * cs.length + 1) cs
  if (Reader.skip rest).isEmpty then some v else none

/-- The value that a text is written for. -/
def read? (text : String) : Option Json := readChars? text.toList

end Popularity.Json
