import Popularity.Decimal.Basic

/-!
# JSON values and their written form

Values keep what a reader may need to tell apart: members of an object stay in order and may
repeat, a number keeps its digits, and a string may be `none`, which stands for one whose escapes
name half of a surrogate pair. No text can hold such a string, but it may stand in a value that
nobody looks into.

## Main definitions

* `Json`
* `Json.compact` — without blanks
* `Json.pretty` — two blanks more per level, an empty array or object on one line
-/

namespace Popularity

/-- A JSON value. -/
inductive Json where
  | null
  | bool (b : Bool)
  /-- A number as it is written. -/
  | number (written : List Char)
  | string (s : Option String)
  | array (elements : List Json)
  | object (members : List (Option String × Json))
  deriving Repr, Inhabited

namespace Json

/-! ### Making values -/

/-- A string of text. -/
def text (s : String) : Json := .string (some s)

/-- A whole number. -/
def int (n : Int) : Json := .number (Decimal.ofInt n)

/-- A 64-bit number. -/
def word (n : Int64) : Json := int n.toInt

/-- An object whose names are text. -/
def record (members : List (String × Json)) : Json :=
  .object (members.map fun m => (some m.1, m.2))

/-! ### Writing -/

/-- The lower case hexadecimal digit for `d`, for `d` below sixteen. -/
def hexDigit (d : Nat) : Char := if d < 10 then Char.ofNat (48 + d) else Char.ofNat (87 + d)

/-- How one character stands inside a string: quotes, backslashes and control characters are
escaped, the five usual controls by a letter and the others by their code; all else stands for
itself. -/
def escape (c : Char) : List Char :=
  if c = '"' then ['\\', '"']
  else if c = '\\' then ['\\', '\\']
  else if c = '\n' then ['\\', 'n']
  else if c = '\r' then ['\\', 'r']
  else if c = '\t' then ['\\', 't']
  else if c = '\x08' then ['\\', 'b']
  else if c = '\x0c' then ['\\', 'f']
  else if c.toNat < 32 then
    ['\\', 'u', '0', '0', hexDigit (c.toNat / 16), hexDigit (c.toNat % 16)]
  else [c]

/-- A string between quotes. -/
def quoted (s : String) : List Char := '"' :: (s.toList.flatMap escape ++ ['"'])

/-- A string or a name; the one that no text can hold is written as the empty string. -/
def quotedOr (s : Option String) : List Char := quoted (s.getD "")

mutual

/-- The written form without blanks. -/
def compact : Json → List Char
  | .null => "null".toList
  | .bool true => "true".toList
  | .bool false => "false".toList
  | .number w => w
  | .string s => quotedOr s
  | .array [] => ['[', ']']
  | .array (v :: vs) => '[' :: (compact v ++ compactElements vs)
  | .object [] => ['\x7b', '\x7d']
  | .object ((n, v) :: ms) => '\x7b' :: (quotedOr n ++ ':' :: (compact v ++ compactMembers ms))

/-- The elements after the first, and the closing bracket. -/
def compactElements : List Json → List Char
  | [] => [']']
  | v :: vs => ',' :: (compact v ++ compactElements vs)

/-- The members after the first, and the closing brace. -/
def compactMembers : List (Option String × Json) → List Char
  | [] => ['\x7d']
  | (n, v) :: ms => ',' :: (quotedOr n ++ ':' :: (compact v ++ compactMembers ms))

end

/-- The start of a line, `depth` levels in. -/
def line (depth : Nat) : List Char := '\n' :: List.replicate (2 * depth) ' '

mutual

/-- The indented form of a value that starts `depth` levels in. -/
def prettyAt (depth : Nat) : Json → List Char
  | .null => "null".toList
  | .bool true => "true".toList
  | .bool false => "false".toList
  | .number w => w
  | .string s => quotedOr s
  | .array [] => ['[', ']']
  | .array (v :: vs) =>
    '[' :: (line (depth + 1) ++ prettyAt (depth + 1) v ++ prettyElements depth vs)
  | .object [] => ['\x7b', '\x7d']
  | .object ((n, v) :: ms) =>
    '\x7b' :: (line (depth + 1) ++ quotedOr n ++ ':' :: ' ' :: (prettyAt (depth + 1) v
      ++ prettyMembers depth ms))

/-- The elements after the first, and the closing bracket. -/
def prettyElements (depth : Nat) : List Json → List Char
  | [] => line depth ++ [']']
  | v :: vs => ',' :: (line (depth + 1) ++ prettyAt (depth + 1) v ++ prettyElements depth vs)

/-- The members after the first, and the closing brace. -/
def prettyMembers (depth : Nat) : List (Option String × Json) → List Char
  | [] => line depth ++ ['\x7d']
  | (n, v) :: ms =>
    ',' :: (line (depth + 1) ++ quotedOr n ++ ':' :: ' ' :: (prettyAt (depth + 1) v
      ++ prettyMembers depth ms))

end

/-- The indented form. -/
def pretty (v : Json) : List Char := prettyAt 0 v

/-- The compact form as a string. -/
def compactText (v : Json) : String := String.ofList v.compact

/-- The indented form as a string. -/
def prettyText (v : Json) : String := String.ofList v.pretty

end Json

end Popularity
