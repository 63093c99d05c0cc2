import Stencil.Toml.Basic
import Stencil.Toml.Moment
import Stencil.Json.Reader
set_option autoImplicit false

/-!
# Reading TOML documents

The grammar of TOML 1.0: lines that set a key or open a table, four kinds of strings, numbers in
four bases, points in time, arrays over many lines and inline tables on one.

## Main definitions

* `Stencil.Toml.readKeys` — a key with its dots.
* `Stencil.Toml.readScalar`, `readValue` — values.
* `Stencil.Toml.Line`, `readLine` — one line of a document.
* `Stencil.Toml.parse` — a document.
-/

namespace Stencil.Toml

/-! ## Between the pieces -/

/-- Whether a character is a space or a tab. -/
def isSpace (c : Char) : Bool := c == ' ' || c == '\t'

/-- The text without leading spaces and tabs. -/
def skipSpaces (s : List Char) : List Char := s.dropWhile isSpace

/-- Whether a character may stand in a comment or in a literal string. -/
def isVisible (c : Char) : Bool := c == '\t' || (0x20 ≤ c.toNat && c.toNat != 0x7F)

/-- The text behind a line break. -/
def newline? : List Char → Option (List Char)
  | '\n' :: s => some s
  | '\r' :: '\n' :: s => some s
  | _ => none

/-- **The text without leading spaces, line breaks and comments;** none if a comment holds a
control character. -/
def skipTrivia : Bool → List Char → Option (List Char)
  | _, [] => some []
  | _, '\n' :: s => skipTrivia false s
  | _, '\r' :: '\n' :: s => skipTrivia false s
  | true, c :: s => if isVisible c then skipTrivia true s else none
  | false, c :: s =>
    if isSpace c then skipTrivia false s
    else if c = '#' then skipTrivia true s
    else some (c :: s)

/-- **The end of a line:** spaces, perhaps a comment, and a line break or the end of the text. -/
def endLine (s : List Char) : Option (List Char) :=
  let s := skipSpaces s
  let s := match s with
    | '#' :: rest => rest.dropWhile isVisible
    | rest => rest
  if s.isEmpty then some [] else newline? s

/-! ## Strings -/

/-- The character of a code point, which must not be a surrogate. -/
def scalar (n : Nat) : Option Char :=
  if n < 0xD800 ∨ (0xE000 ≤ n ∧ n < 0x110000) then some (Char.ofNat n) else none

/-- The character of an escape of one letter. -/
def shortEscape : Char → Option Char
  | 'b' => some '\x08'
  | 't' => some '\t'
  | 'n' => some '\n'
  | 'f' => some '\x0c'
  | 'r' => some '\r'
  | '"' => some '"'
  | '\\' => some '\\'
  | _ => none

/-- **An escape,** from behind its backslash, and the text behind it. -/
def readEscape (s : List Char) : Option (Char × List Char) :=
  let code (n : Nat) (s : List Char) : Option (Char × List Char) :=
    let ds := s.take n
    if ds.length = n ∧ ds.all (Number.isDigitOf 16) then
      (scalar (Number.natOfDigits 16 ds)).map fun c => (c, s.drop n)
    else none
  match s with
  | [] => none
  | 'u' :: s => code 4 s
  | 'U' :: s => code 8 s
  | c :: s => (shortEscape c).map fun e => (e, s)

/-- A string in double quotes, from behind the opening quote. -/
def readBasic : Nat → List Char → Option (List Char × List Char)
  | 0, _ => none
  | _ + 1, [] => none
  | _ + 1, '"' :: s => some ([], s)
  | fuel + 1, '\\' :: s => do
    let (c, s) ← readEscape s
    let (text, s) ← readBasic fuel s
    return (c :: text, s)
  | fuel + 1, c :: s =>
    if isVisible c then (readBasic fuel s).map fun (text, s) => (c :: text, s) else none

/-- A string in single quotes, from behind the opening quote. -/
def readLiteral (s : List Char) : Option (List Char × List Char) :=
  let text := s.takeWhile fun c => c != '\'' && isVisible c
  match s.drop text.length with
  | '\'' :: rest => some (text, rest)
  | _ => none

/-- The text behind three quotes that close a string over many lines; up to two quotes before
them belong to the string. -/
def closing (q : Char) : List Char → Option (List Char × List Char)
  | a :: b :: c :: s =>
    if a = q ∧ b = q ∧ c = q then
      match s with
      | d :: e :: rest =>
        if d = q ∧ e = q then some ([q, q], rest)
        else if d = q then some ([q], e :: rest) else some ([], s)
      | [d] => if d = q then some ([q], []) else some ([], [d])
      | [] => some ([], [])
    else none
  | _ => none

/-- Whether a backslash here ends its line, so that the break and the blanks behind it are not
part of the string. -/
def endsLine (s : List Char) : Bool := (newline? (skipSpaces s)).isSome

/-- The text without leading spaces and line breaks. -/
def skipBreaks : Nat → List Char → List Char
  | 0, s => s
  | fuel + 1, s =>
    let s := skipSpaces s
    match newline? s with
    | some rest => skipBreaks fuel rest
    | none => s

/-- A string over many lines in double quotes, from behind the opening quotes. -/
def readLongBasic : Nat → List Char → Option (List Char × List Char)
  | 0, _ => none
  | _ + 1, [] => none
  | fuel + 1, c :: s =>
    match closing '"' (c :: s) with
    | some (text, rest) => some (text, rest)
    | none =>
      if c = '\\' then
        if endsLine s then readLongBasic fuel (skipBreaks fuel s)
        else do
          let (e, s) ← readEscape s
          let (text, s) ← readLongBasic fuel s
          return (e :: text, s)
      else match newline? (c :: s) with
        | some s => (readLongBasic fuel s).map fun (text, s) => ('\n' :: text, s)
        | none =>
          if isVisible c then (readLongBasic fuel s).map fun (text, s) => (c :: text, s) else none

/-- A string over many lines in single quotes, from behind the opening quotes. -/
def readLongLiteral : Nat → List Char → Option (List Char × List Char)
  | 0, _ => none
  | _ + 1, [] => none
  | fuel + 1, c :: s =>
    match closing '\'' (c :: s) with
    | some (text, rest) => some (text, rest)
    | none => match newline? (c :: s) with
      | some s => (readLongLiteral fuel s).map fun (text, s) => ('\n' :: text, s)
      | none =>
        if isVisible c then (readLongLiteral fuel s).map fun (text, s) => (c :: text, s) else none

/-- The text without a line break at its head. -/
def dropNewline (s : List Char) : List Char := (newline? s).getD s

/-- **A string** of any of the four kinds. -/
def readString (s : List Char) : Option (List Char × List Char) :=
  match s with
  | '"' :: '"' :: '"' :: rest => readLongBasic s.length (dropNewline rest)
  | '"' :: rest => readBasic s.length rest
  | '\'' :: '\'' :: '\'' :: rest => readLongLiteral s.length (dropNewline rest)
  | '\'' :: rest => readLiteral rest
  | _ => none

/-! ## Keys -/

/-- Whether a character may stand in a bare key. -/
def isBareKey (c : Char) : Bool := c.isAlphanum || c == '_' || c == '-'

/-- One key: bare, or a string on one line. -/
def readKey (s : List Char) : Option (String × List Char) :=
  match s with
  | '"' :: rest => (readBasic s.length rest).map fun (k, s) => (String.ofList k, s)
  | '\'' :: rest => (readLiteral rest).map fun (k, s) => (String.ofList k, s)
  | _ =>
    let key := s.takeWhile isBareKey
    if key.isEmpty then none else some (String.ofList key, s.drop key.length)

/-- Keys with dots between them, and the text behind them and the spaces that follow. -/
def readDottedKeys : Nat → List Char → Option (List String × List Char)
  | 0, _ => none
  | fuel + 1, s => do
    let (key, s) ← readKey (skipSpaces s)
    match skipSpaces s with
    | '.' :: s => (readDottedKeys fuel s).map fun (keys, s) => (key :: keys, s)
    | s => return ([key], s)

/-- How deep keys and values may be nested. -/
def depthLimit : Nat := 80

/-- **A key with its dots,** and the text behind it. -/
def readKeys (s : List Char) : Option (List String × List Char) :=
  (readDottedKeys (s.length + 1) s).filter fun (keys, _) => keys.length < depthLimit

/-! ## Numbers -/

/-- Whether a text is digits, with single underscores between some of them. -/
def underscoresBetween (base : Nat) : List Char → Bool
  | [] => false
  | [c] => Number.isDigitOf base c
  | c :: '_' :: s => Number.isDigitOf base c && underscoresBetween base s
  | c :: s => Number.isDigitOf base c && underscoresBetween base s

/-- Digits with underscores between them: the digits, and the text behind them. -/
def readDigits (base : Nat) (s : List Char) : Option (List Char × List Char) :=
  let run := s.takeWhile fun c => Number.isDigitOf base c || c == '_'
  if underscoresBetween base run then some (run.filter (· != '_'), s.drop run.length) else none

/-- A whole number within 64 bits. -/
def within64 (n : Int) : Option Toml :=
  if Int64.minValue.toInt ≤ n ∧ n ≤ Int64.maxValue.toInt then some (.integer n) else none

/-- A whole number behind the letter of its base. -/
def readBased (base : Nat) (s : List Char) : Option (Toml × List Char) := do
  let (ds, rest) ← readDigits base s
  return (← within64 (Number.natOfDigits base ds), rest)

/-- The exponent of a float, if one follows. -/
def readPower : List Char → Option (Option Int × List Char)
  | c :: s =>
    if c = 'e' ∨ c = 'E' then do
      let (negative, s) := match s with
        | '-' :: r => (true, r)
        | '+' :: r => (false, r)
        | r => (false, r)
      let (ds, s) ← readDigits 10 s
      let n : Int := Number.natOfDigits 10 ds
      return (some (if negative then -n else n), s)
    else some (none, c :: s)
  | [] => some (none, [])

/-- A whole number or a float in base ten. -/
def readDecimal (sign : Option Char) (s : List Char) : Option (Toml × List Char) := do
  let negative := sign == some '-'
  let (whole, s) ← readDigits 10 s
  if 1 < whole.length ∧ whole.head? = some '0' then none
  else
    let (fraction, s) ← match s with
      | '.' :: rest => (readDigits 10 rest).map fun (ds, s) => (some ds, s)
      | _ => some (none, s)
    let (power, s) ← readPower s
    if fraction.isNone ∧ power.isNone then
      let n : Int := Number.natOfDigits 10 whole
      return (← within64 (if negative then -n else n), s)
    else
      let x := Number.ofDecimalDigits whole (fraction.getD []) (power.getD 0)
      if negative then return (.float (-x), s)
      else if x.isInf then none
      else return (.float x, s)

/-- A float without digits. -/
def readSpecial (sign : Option Char) : List Char → Option (Toml × List Char)
  | 'i' :: 'n' :: 'f' :: s => some (.float (if sign = some '-' then -1.0 / 0.0 else 1.0 / 0.0), s)
  | 'n' :: 'a' :: 'n' :: s => some (.float (0.0 / 0.0), s)
  | _ => none

/-! ## Values -/

/-- A number or a point in time. -/
def readNumber : List Char → Option (Toml × List Char)
  | '0' :: 'x' :: s => readBased 16 s
  | '0' :: 'o' :: s => readBased 8 s
  | '0' :: 'b' :: s => readBased 2 s
  | '+' :: s => (readSpecial (some '+') s).or (readDecimal (some '+') s)
  | '-' :: s => (readSpecial (some '-') s).or (readDecimal (some '-') s)
  | s =>
    if looksLikeMoment s then (readMoment s).map fun (text, s) => (.datetime text, s)
    else (readSpecial none s).or (readDecimal none s)

/-- **A value that holds no other values.** -/
def readScalar (s : List Char) : Option (Toml × List Char) :=
  match s with
  | '"' :: _ => (readString s).map fun (text, s) => (.string (String.ofList text), s)
  | '\'' :: _ => (readString s).map fun (text, s) => (.string (String.ofList text), s)
  | 't' :: 'r' :: 'u' :: 'e' :: s => some (.boolean true, s)
  | 'f' :: 'a' :: 'l' :: 's' :: 'e' :: s => some (.boolean false, s)
  | _ => readNumber s

mutual

/-- **A value,** and the text behind it. `depth` is how many more levels may be opened. -/
def readValue : Nat → Nat → List Char → Option (Toml × List Char)
  | 0, _, _ => none
  | fuel + 1, depth, s =>
    match s, depth with
    | '[' :: _, 0 => none
    | '\x7b' :: _, 0 => none
    | '[' :: s, depth + 1 =>
      (readItems fuel depth s).map fun (items, s) => (.array items, s)
    | '\x7b' :: s, depth + 1 =>
      match skipSpaces s with
      | '\x7d' :: s => some (.table [], s)
      | s => (readPairs fuel depth [] s).map fun (es, s) => (.table (Draft.finishEntries es), s)
    | s, _ => readScalar s

/-- The items of an array, up to its closing bracket. -/
def readItems : Nat → Nat → List Char → Option (List Toml × List Char)
  | 0, _, _ => none
  | fuel + 1, depth, s =>
    match skipTrivia false s with
    | none => none
    | some (']' :: s) => some ([], s)
    | some s =>
      match readValue fuel depth s with
      | none => none
      | some (item, s) =>
        match skipTrivia false s with
        | some (',' :: s) => (readItems fuel depth s).map fun (items, s) => (item :: items, s)
        | some (']' :: s) => some ([item], s)
        | _ => none

/-- The pairs of an inline table, up to its closing brace, added to those read before. -/
def readPairs : Nat → Nat → Entries → List Char → Option (Entries × List Char)
  | 0, _, _, _ => none
  | fuel + 1, depth, before, s =>
    match readKeys s with
    | some (keys, '=' :: s) =>
      match readValue fuel depth (skipSpaces s) with
      | none => none
      | some (value, s) =>
        match Draft.insertKey value keys true before with
        | none => none
        | some entries =>
          match skipSpaces s with
          | ',' :: s => readPairs fuel depth entries s
          | '\x7d' :: s => some (entries, s)
          | _ => none
    | _ => none

end

/-! ## Documents -/

/-- **A line of a document.** -/
inductive Line where
  | set (keys : List String) (value : Toml)
  | table (keys : List String)
  | tables (keys : List String)

/-- A line that is not empty, and the text behind its end. -/
def readLine (s : List Char) : Option (Line × List Char) :=
  match s with
  | '[' :: '[' :: s => do
    match ← readKeys s with
    | (keys, ']' :: ']' :: s) => return (.tables keys, ← endLine s)
    | _ => none
  | '[' :: s => do
    match ← readKeys s with
    | (keys, ']' :: s) => return (.table keys, ← endLine s)
    | _ => none
  | _ => do
    match ← readKeys s with
    | (keys, '=' :: s) =>
      let (value, s) ← readValue (2 * s.length + 2) (depthLimit - 1) (skipSpaces s)
      return (.set keys value, ← endLine s)
    | _ => none

/-- **A document under construction:** what the lines so far have made, and the table that is
open. -/
structure Document where
  entries : Entries := []
  current : List String := []

/-- The document with one more line. -/
def Document.add (d : Document) : Line → Option Document
  | .set keys value =>
    (Draft.descend (Draft.insertKey value keys true) d.current d.entries).map fun es =>
      { d with entries := es }
  | .table keys => do
    let key ← keys.getLast?
    let es ← Draft.descend (Draft.openTable key) keys.dropLast d.entries
    return { entries := es, current := keys }
  | .tables keys => do
    let key ← keys.getLast?
    let es ← Draft.descend (Draft.openTables key) keys.dropLast d.entries
    return { entries := es, current := keys }

/-- The document with the lines of a text. -/
def readLines : Nat → Document → List Char → Option Document
  | 0, _, _ => none
  | fuel + 1, d, s =>
    match skipTrivia false s with
    | none => none
    | some [] => some d
    | some s => do
      let (line, s) ← readLine s
      readLines fuel (← d.add line) s

/-- **The table of a document,** if the text is one. A byte order mark may stand in front. -/
def parse (text : String) : Option Toml :=
  let s := match text.toList with
    | '\ufeff' :: s => s
    | s => s
  (readLines (s.length + 1) {} s).map fun d => .table (Draft.finishEntries d.entries)

end Stencil.Toml
