import Popularity.Decimal.Basic

/-!
# Quoted text

Text between double quotes, as the log shows it: quotes, backslashes and control characters are
escaped.

## Main definitions

* `Quoted.text`
-/

namespace Popularity.Quoted

/-- How a character stands between quotes. -/
def char (c : Char) : List Char :=
  if c = '"' then ['\\', '"']
  else if c = '\\' then ['\\', '\\']
  else if c = '\n' then ['\\', 'n']
  else if c = '\r' then ['\\', 'r']
  else if c = '\t' then ['\\', 't']
  else if c = '\x00' then ['\\', '0']
  else if c.toNat < 32 ∨ 127 ≤ c.toNat ∧ c.toNat < 160 then
    ['\\', 'u', '\x7b'] ++ Nat.toDigits 16 c.toNat ++ ['\x7d']
  else [c]

/-- A text between quotes. -/
def text (s : String) : String := String.ofList ('"' :: (s.toList.flatMap char ++ ['"']))

end Popularity.Quoted
