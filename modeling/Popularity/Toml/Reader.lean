import Popularity.Toml.Scalar

/-!
# Reading TOML

A TOML text is read into its lines: headers of tables and settings. What the lines say together is
the business of `Popularity.Toml.Document`.

Each reader takes the characters that are left and returns its value with those it did not need.
The length of the text bounds all nesting and all loops, and is the fuel where one is needed.

## Main definitions

* `Toml.Line`
* `Toml.lines?` — the lines of a text
-/

namespace Popularity.Toml

/-- A value as it is written: tables between braces keep their settings in a row. -/
inductive Written where
  | plain (v : Tree)
  | list (elements : List Written)
  | inline (settings : List (List String × Written))
  deriving Repr, Inhabited

/-- A line that says something. Names with points between them are paths. -/
inductive Line where
  | header (path : List String)
  /-- The header of one of several tables of a name. -/
  | arrayHeader (path : List String)
  | setting (path : List String) (value : Written)
  deriving Repr, Inhabited

/-! ### Blanks and comments -/

/-- Blanks within a line. -/
def isGap (c : Char) : Bool := c = ' ' || c = '\t'

/-- The text after blanks. -/
def skipGap (cs : List Char) : List Char := cs.dropWhile isGap

/-- A character that no string and no comment may hold as it is. -/
def isControl (c : Char) : Bool := (c.toNat < 32 && c ≠ '\t') || c.toNat = 127

/-- The text after the end of a line, if one stands there. -/
def newline? : List Char → Option (List Char)
  | '\n' :: cs => some cs
  | '\r' :: '\n' :: cs => some cs
  | _ => none

/-- The text after a comment, if one stands there; a comment ends where its line ends. -/
def skipComment (cs : List Char) : Option (List Char) :=
  match cs with
  | '#' :: cs =>
    let rest := cs.dropWhile fun c => !isControl c
    if rest.isEmpty || (newline? rest).isSome then some rest else none
  | cs => some cs

/-- The text after blanks, comments and ends of lines. -/
def skipSpace (fuel : Nat) (cs : List Char) : Option (List Char) :=
  match fuel with
  | 0 => some cs
  | fuel + 1 => do
    let cs ← skipComment (skipGap cs)
    match newline? cs with
    | some cs => skipSpace fuel cs
    | none => return cs

/-! ### Strings -/

/-- A number of hexadecimal digits, as a character. -/
def codePoint? (n : Nat) (cs : List Char) : Option (Char × List Char) :=
  let ds := cs.take n
  if ds.length = n ∧ ds.all (isDigitOf 16) then
    let code := ds.foldl (fun v c => 16 * v + digitValue c) 0
    if code < 0xD800 ∨ 0xE000 ≤ code ∧ code < 0x110000 then some (Char.ofNat code, cs.drop n)
    else none
  else none

/-- What an escape stands for, after its backslash. -/
def escaped? : List Char → Option (Char × List Char)
  | 'b' :: cs => some ('\x08', cs)
  | 't' :: cs => some ('\t', cs)
  | 'n' :: cs => some ('\n', cs)
  | 'f' :: cs => some ('\x0c', cs)
  | 'r' :: cs => some ('\r', cs)
  | 'e' :: cs => some ('\x1b', cs)
  | '"' :: cs => some ('"', cs)
  | '\\' :: cs => some ('\\', cs)
  | 'x' :: cs => codePoint? 2 cs
  | 'u' :: cs => codePoint? 4 cs
  | 'U' :: cs => codePoint? 8 cs
  | _ => none

/-- A string on one line after its opening quote; backslashes escape unless it is `raw`. -/
def lineString? (quote : Char) (raw : Bool) (fuel : Nat) (cs : List Char) :
    Option (List Char × List Char) :=
  match fuel, cs with
  | 0, _ | _, [] => none
  | fuel + 1, c :: rest =>
    if c = quote then some ([], rest)
    else if c = '\\' ∧ !raw then do
      let (c, rest) ← escaped? rest
      let (s, rest) ← lineString? quote raw fuel rest
      return (c :: s, rest)
    else if isControl c then none
    else do
      let (s, rest) ← lineString? quote raw fuel rest
      return (c :: s, rest)

/-- The text after a backslash at the end of a line: blanks and ends of lines are left out. -/
def skipFold (fuel : Nat) (cs : List Char) : List Char :=
  match fuel with
  | 0 => cs
  | fuel + 1 =>
    match newline? (skipGap cs) with
    | some cs => skipFold fuel cs
    | none => skipGap cs

/-- A string over several lines after its three opening quotes. Up to two quotes may stand before
the three that close it. -/
def blockString? (quote : Char) (raw : Bool) (fuel : Nat) (cs : List Char) :
    Option (List Char × List Char) :=
  match fuel, cs with
  | 0, _ | _, [] => none
  | fuel + 1, c :: rest =>
    if c = quote then
      let (quotes, after) := cs.span (· = quote)
      if quotes.length < 3 then do
        let (s, rest) ← blockString? quote raw fuel rest
        return (c :: s, rest)
      else if quotes.length ≤ 5 then some (quotes.drop 3, after)
      else none
    else if c = '\\' ∧ !raw then
      match newline? (skipGap rest) with
      | some rest => blockString? quote raw fuel (skipFold rest.length rest)
      | none => do
        let (c, rest) ← escaped? rest
        let (s, rest) ← blockString? quote raw fuel rest
        return (c :: s, rest)
    else
      match newline? cs with
      | some rest => do
        let (s, rest) ← blockString? quote raw fuel rest
        return ('\n' :: s, rest)
      | none =>
        if isControl c then none
        else do
          let (s, rest) ← blockString? quote raw fuel rest
          return (c :: s, rest)

/-- A string after its opening quote, which may be the first of three where `block` allows it. -/
def string? (quote : Char) (block : Bool) (cs : List Char) : Option (String × List Char) :=
  let raw := quote = '\''
  let found := match cs with
    | a :: b :: rest =>
      if block ∧ a = quote ∧ b = quote then
        blockString? quote raw (rest.length + 1) ((newline? rest).getD rest)
      else lineString? quote raw (cs.length + 1) cs
    | _ => lineString? quote raw (cs.length + 1) cs
  found.map fun (s, rest) => (String.ofList s, rest)

/-! ### Names -/

/-- A character of a name without quotes. -/
def isBare (c : Char) : Bool := c.isAlphanum || c = '_' || c = '-'

/-- One name. -/
def name? : List Char → Option (String × List Char)
  | '"' :: cs => string? '"' false cs
  | '\'' :: cs => string? '\'' false cs
  | cs =>
    match cs.span isBare with
    | ([], _) => none
    | (name, rest) => some (String.ofList name, rest)

/-- A path, with blanks around its points. -/
def path? (fuel : Nat) (cs : List Char) : Option (List String × List Char) :=
  match fuel with
  | 0 => none
  | fuel + 1 => do
    let (name, rest) ← name? (skipGap cs)
    match skipGap rest with
    | '.' :: rest =>
      let (path, rest) ← path? fuel rest
      return (name :: path, rest)
    | rest => return ([name], rest)

/-! ### Values -/

/-- A character of a plain value. -/
def isWordChar (c : Char) : Bool :=
  c.isAlphanum || c = '+' || c = '-' || c = '_' || c = '.' || c = ':'

/-- A plain value at the front of a text. -/
def plain? (cs : List Char) : Option (Tree × List Char) :=
  let (word, rest) := cs.span isWordChar
  let (word, rest) := match rest with
    | ' ' :: d :: _ =>
      if d.isDigit ∧ (day? word).any (·.2.isEmpty) then
        let (time, rest) := (rest.drop 1).span isWordChar
        (word ++ ' ' :: time, rest)
      else (word, rest)
    | _ => (word, rest)
  (word? word).map (·, rest)

mutual

/-- A value. -/
def value? (fuel : Nat) (cs : List Char) : Option (Written × List Char) :=
  match fuel with
  | 0 => none
  | fuel + 1 =>
    match cs with
    | '"' :: rest => (string? '"' true rest).map fun (s, rest) => (.plain (.text s), rest)
    | '\'' :: rest => (string? '\'' true rest).map fun (s, rest) => (.plain (.text s), rest)
    | '[' :: rest => (elements? fuel rest).map fun (es, rest) => (.list es, rest)
    | '\x7b' :: rest => (settings? fuel rest).map fun (ss, rest) => (.inline ss, rest)
    | cs => (plain? cs).map fun (v, rest) => (.plain v, rest)

/-- The elements of a list and its closing bracket. -/
def elements? (fuel : Nat) (cs : List Char) : Option (List Written × List Char) :=
  match fuel with
  | 0 => none
  | fuel + 1 => do
    match ← skipSpace cs.length cs with
    | ']' :: rest => return ([], rest)
    | cs =>
      let (v, rest) ← value? fuel cs
      match ← skipSpace rest.length rest with
      | ',' :: rest =>
        let (vs, rest) ← elements? fuel rest
        return (v :: vs, rest)
      | ']' :: rest => return ([v], rest)
      | _ => none

/-- The settings of a table between braces and the closing brace. -/
def settings? (fuel : Nat) (cs : List Char) :
    Option (List (List String × Written) × List Char) :=
  match fuel with
  | 0 => none
  | fuel + 1 => do
    match ← skipSpace cs.length cs with
    | '\x7d' :: rest => return ([], rest)
    | cs =>
      let (s, rest) ← setting? fuel cs
      match ← skipSpace rest.length rest with
      | ',' :: rest =>
        let (ss, rest) ← settings? fuel rest
        return (s :: ss, rest)
      | '\x7d' :: rest => return ([s], rest)
      | _ => none

/-- A path, an equals sign and a value. -/
def setting? (fuel : Nat) (cs : List Char) : Option ((List String × Written) × List Char) :=
  match fuel with
  | 0 => none
  | fuel + 1 => do
    let (path, rest) ← path? (cs.length + 1) cs
    match rest with
    | '=' :: rest =>
      let (v, rest) ← value? fuel (skipGap rest)
      return ((path, v), rest)
    | _ => none

end

/-! ### Lines -/

/-- The path of a header and the brackets that close it. -/
def headerPath? (closing : List Char) (cs : List Char) : Option (List String × List Char) := do
  let (path, rest) ← path? (cs.length + 1) cs
  if closing.isPrefixOf rest then return (path, rest.drop closing.length) else none

/-- A line that says something. -/
def line? : List Char → Option (Line × List Char)
  | '[' :: '[' :: cs => (headerPath? [']', ']'] cs).map fun (p, rest) => (.arrayHeader p, rest)
  | '[' :: cs => (headerPath? [']'] cs).map fun (p, rest) => (.header p, rest)
  | cs => (setting? (2 * cs.length + 2) cs).map fun (s, rest) => (.setting s.1 s.2, rest)

/-- The lines that are left; after each one only a comment may stand before the line ends. -/
def linesFrom? (fuel : Nat) (cs : List Char) : Option (List Line) :=
  match fuel with
  | 0 => none
  | fuel + 1 => do
    let cs ← skipSpace cs.length cs
    if cs.isEmpty then return []
    let (line, rest) ← line? cs
    let rest ← skipComment (skipGap rest)
    match rest with
    | [] => return [line]
    | _ => return line :: (← linesFrom? fuel (← newline? rest))

/-- The lines of a text. -/
def lines? (text : String) : Option (List Line) :=
  let cs := text.toList
  linesFrom? (cs.length + 1) cs

end Popularity.Toml
