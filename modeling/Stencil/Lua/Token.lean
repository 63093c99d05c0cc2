import Stencil.Lua.Bytes
import Stencil.Lua.Name
import Stencil.Lua.Numeral
set_option autoImplicit false

/-!
# Tokens of Lua

A program is read as a sequence of tokens, each with the line on which it ends. Blanks and
comments part tokens and are no tokens themselves. A text that begins like a token and is none is
kept as a fault, so that it counts only once reading has come that far.

## Main definitions

* `Stencil.Lua.Token` — the tokens.
* `Stencil.Lua.Located` — a token with its line.
* `Stencil.Lua.readString` — the value of a string literal.
* `Stencil.Lua.tokenize` — the tokens of a program; the last is the end of the program.
-/

namespace Stencil.Lua

/-! ## Tokens -/

/-- The signs of the language. -/
inductive Symbol where
  | plus | minus | star | slash | doubleSlash | percent | caret | hash
  | ampersand | tilde | bar | shiftLeft | shiftRight
  | equal | notEqual | lessEqual | greaterEqual | less | greater | assign
  | leftParen | rightParen | leftBrace | rightBrace | leftBracket | rightBracket
  | doubleColon | semicolon | colon | comma | dot | concat | ellipsis
  deriving DecidableEq, Repr

/-- **Tokens.** -/
inductive Token where
  | name (s : List Char)
  | keyword (k : Keyword)
  | symbol (s : Symbol)
  | number (n : Number)
  | string (b : Bytes)
  /-- A character that begins no token. -/
  | stray (c : Char)
  /-- A text that begins like a token and is none. -/
  | fault
  /-- The end of the program. -/
  | finish

/-- **A token with the line on which it ends.** -/
structure Located where
  token : Token
  line : Nat

/-! ## Signs -/

/-- The sign of one character. -/
def symbolOf? : Char → Option Symbol
  | '+' => some .plus | '-' => some .minus | '*' => some .star | '/' => some .slash
  | '%' => some .percent | '^' => some .caret | '#' => some .hash | '&' => some .ampersand
  | '~' => some .tilde | '|' => some .bar | '<' => some .less | '>' => some .greater
  | '=' => some .assign | '(' => some .leftParen | ')' => some .rightParen
  | '\x7b' => some .leftBrace | '\x7d' => some .rightBrace | '[' => some .leftBracket
  | ']' => some .rightBracket | ';' => some .semicolon | ':' => some .colon
  | ',' => some .comma | '.' => some .dot
  | _ => none

/-- **The longest sign at the front of a text,** and what follows it. -/
def readSymbol : List Char → Option (Symbol × List Char)
  | '.' :: '.' :: '.' :: s => some (.ellipsis, s)
  | '.' :: '.' :: s => some (.concat, s)
  | '=' :: '=' :: s => some (.equal, s)
  | '~' :: '=' :: s => some (.notEqual, s)
  | '<' :: '=' :: s => some (.lessEqual, s)
  | '>' :: '=' :: s => some (.greaterEqual, s)
  | '<' :: '<' :: s => some (.shiftLeft, s)
  | '>' :: '>' :: s => some (.shiftRight, s)
  | '/' :: '/' :: s => some (.doubleSlash, s)
  | ':' :: ':' :: s => some (.doubleColon, s)
  | c :: s => (symbolOf? c).map fun symbol => (symbol, s)
  | [] => none

/-! ## Lines -/

/-- Whether a character ends a line. -/
def isBreak (c : Char) : Bool := c == '\n' || c == '\r'

/-- What follows the line break at the front of a text: one character, or two that differ. -/
def dropBreak : List Char → List Char
  | '\n' :: '\r' :: s | '\r' :: '\n' :: s => s
  | _ :: s => s
  | [] => []

/-! ## Long brackets -/

/-- What follows an opening long bracket, and its level. -/
def longOpening (s : List Char) : Option (Nat × List Char) :=
  match s with
  | '[' :: t =>
    let signs := t.takeWhile (· == '=')
    match t.drop signs.length with
    | '[' :: rest => some (signs.length, rest)
    | _ => none
  | _ => none

/-- What follows a closing long bracket of a level. -/
def longClosing (level : Nat) (s : List Char) : Option (List Char) :=
  match s with
  | ']' :: t =>
    if t.takeWhile (· == '=') = List.replicate level '=' then
      match t.drop level with
      | ']' :: rest => some rest
      | _ => none
    else none
  | _ => none

/-- A text read so far, the line on which it ends, and what follows it. -/
structure Reading (α : Type) where
  value : α
  line : Nat
  rest : List Char

/-- The inside of a long bracket, at most `fuel` characters of it. Line breaks become line
feeds. Without a closing bracket, the line of the end of the text. -/
def longBody (level : Nat) : Nat → Nat → List Char → Except Nat (Reading (List Char))
  | 0, line, _ | _, line, [] => .error line
  | fuel + 1, line, c :: s =>
    match longClosing level (c :: s) with
    | some rest => .ok ⟨[], line, rest⟩
    | none =>
      let (c, line, s) :=
        if isBreak c then ('\n', line + 1, dropBreak (c :: s)) else (c, line, s)
      (longBody level fuel line s).map fun r => { r with value := c :: r.value }

/-- The inside of a long bracket, without a line break at its beginning. -/
def readLong (level line : Nat) (s : List Char) : Except Nat (Reading (List Char)) :=
  match s with
  | c :: _ =>
    if isBreak c then longBody level s.length (line + 1) (dropBreak s)
    else longBody level s.length line s
  | [] => .error line

/-! ## String literals -/

/-- The character for a letter behind a backslash. -/
def letterEscape : Char → Option Char
  | 'a' => some '\x07'
  | 'b' => some '\x08'
  | 'f' => some '\x0c'
  | 'n' => some '\n'
  | 'r' => some '\r'
  | 't' => some '\t'
  | 'v' => some '\x0b'
  | '\\' => some '\\'
  | '"' => some '"'
  | '\'' => some '\''
  | _ => none

/-- A byte that continues a sequence, with six bits of a number. -/
def continuation (n shift : Nat) : UInt8 := (0x80 + (n >>> shift) % 64).toUInt8

/-- The bytes for a code point of up to 31 bits. -/
def encodePoint (n : Nat) : Bytes :=
  if n < 0x80 then [n.toUInt8]
  else if n < 0x800 then [(0xC0 + (n >>> 6)).toUInt8, continuation n 0]
  else if n < 0x10000 then [(0xE0 + (n >>> 12)).toUInt8, continuation n 6, continuation n 0]
  else if n < 0x200000 then
    [(0xF0 + (n >>> 18)).toUInt8, continuation n 12, continuation n 6, continuation n 0]
  else if n < 0x4000000 then
    [(0xF8 + (n >>> 24)).toUInt8, continuation n 18, continuation n 12, continuation n 6,
     continuation n 0]
  else
    [(0xFC + (n >>> 30)).toUInt8, continuation n 24, continuation n 18, continuation n 12,
     continuation n 6, continuation n 0]

/-- The digits behind `\u`, in braces, and what follows them. -/
def codePoint : List Char → Option (Nat × List Char)
  | '\x7b' :: s =>
    let ds := s.takeWhile (Number.isDigitOf 16)
    let n := Number.natOfDigits 16 ds
    match s.drop ds.length with
    | '\x7d' :: rest => if ds.isEmpty ∨ 0x80000000 ≤ n then none else some (n, rest)
    | _ => none
  | _ => none

/-- **The bytes of an escape,** from what follows its backslash, and what follows the escape. -/
def readEscape (line : Nat) (s : List Char) : Option (Reading Bytes) :=
  match s with
  | [] => none
  | 'x' :: a :: b :: rest =>
    match Number.digitValue a, Number.digitValue b with
    | some m, some n => some ⟨[(16 * m + n).toUInt8], line, rest⟩
    | _, _ => none
  | 'z' :: rest =>
    let blanks := rest.takeWhile Number.isSpace
    some ⟨[], line + countBreaks blanks.length blanks, rest.drop blanks.length⟩
  | 'u' :: rest => (codePoint rest).map fun (n, rest) => ⟨encodePoint n, line, rest⟩
  | c :: rest =>
    if isBreak c then some ⟨Bytes.ofChars ['\n'], line + 1, dropBreak s⟩
    else if c.isDigit then
      let ds := (s.take 3).takeWhile Char.isDigit
      let n := Number.natOfDigits 10 ds
      if n < 256 then some ⟨[n.toUInt8], line, s.drop ds.length⟩ else none
    else (letterEscape c).map fun e => ⟨Bytes.ofChars [e], line, rest⟩
where
  /-- The number of line breaks in a text of blanks. -/
  countBreaks : Nat → List Char → Nat
    | 0, _ | _, [] => 0
    | fuel + 1, c :: s =>
      if isBreak c then countBreaks fuel (dropBreak (c :: s)) + 1 else countBreaks fuel s

/-- The inside of a string literal behind its opening quote. Without a closing quote on the line,
or with a wrong escape, the line of the fault. -/
def stringBody (quote : Char) : Nat → Nat → List Char → Except Nat (Reading Bytes)
  | 0, line, _ | _, line, [] => .error line
  | fuel + 1, line, c :: s =>
    if c = quote then .ok ⟨[], line, s⟩
    else if isBreak c then .error line
    else if c = '\\' then
      match readEscape line s with
      | none => .error line
      | some e => (stringBody quote fuel e.line e.rest).map fun r =>
        { r with value := e.value ++ r.value }
    else (stringBody quote fuel line s).map fun r =>
      { r with value := String.utf8EncodeChar c ++ r.value }

/-- **The value of a string literal,** from what follows its opening quote. -/
def readString (quote : Char) (line : Nat) (s : List Char) : Except Nat (Reading Bytes) :=
  stringBody quote (s.length + 1) line s

/-! ## Numerals -/

/-- The characters of a numeral, good or bad: digits of base sixteen and points, and a sign
behind an exponent's mark. -/
def numeralText (small capital : Char) : List Char → List Char
  | [] => []
  | [c] => if Number.isDigitOf 16 c || c == '.' || c == small || c == capital then [c] else []
  | c :: d :: s =>
    if c = small ∨ c = capital then
      if d = '+' ∨ d = '-' then c :: d :: numeralText small capital s
      else c :: numeralText small capital (d :: s)
    else if Number.isDigitOf 16 c || c == '.' then c :: numeralText small capital (d :: s)
    else []

/-- The characters of the numeral at the front of a text. A letter right behind it belongs to
it and spoils it. -/
def numeralSpan (s : List Char) : List Char :=
  let text := match Number.hexBody s with
    | some rest => s.take 2 ++ numeralText 'p' 'P' rest
    | none => numeralText 'e' 'E' s
  text ++ ((s.drop text.length).take 1).filter isNameStart

/-! ## Tokens of a text -/

/-- Whether a numeral begins at the front of a text. -/
def startsNumeral : List Char → Bool
  | '.' :: c :: _ => c.isDigit
  | c :: _ => c.isDigit
  | [] => false

/-- **The token at the front of a text,** which begins with neither blank nor comment. The error
is the line of a text that begins like a token and is none. -/
def readToken (line : Nat) (s : List Char) : Except Nat (Reading Token) :=
  match s with
  | [] => .ok ⟨.finish, line, []⟩
  | c :: rest =>
    if isNameStart c then
      let name := s.takeWhile isNameChar
      let token := match Keyword.ofText? name with
        | some k => .keyword k
        | none => .name name
      .ok ⟨token, line, s.drop name.length⟩
    else if startsNumeral s then
      let span := numeralSpan s
      match Number.ofNumeral? span with
      | some n => .ok ⟨.number n, line, s.drop span.length⟩
      | none => .error line
    else if c = '"' ∨ c = '\'' then
      (readString c line rest).map fun r => { r with value := .string r.value }
    else match longOpening s with
      | some (level, rest) =>
        (readLong level line rest).map fun r => { r with value := .string (Bytes.ofChars r.value) }
      | none =>
        if "[=".toList.isPrefixOf s then .error line
        else match readSymbol s with
          | some (symbol, rest) => .ok ⟨.symbol symbol, line, rest⟩
          | none => .ok ⟨.stray c, line, rest⟩

/-- What follows a comment, from what follows its two dashes. A comment that opens a long bracket
ends with it, any other with its line. -/
def skipComment (line : Nat) (s : List Char) : Except Nat (Reading Unit) :=
  match longOpening s with
  | some (level, rest) => (readLong level line rest).map fun r => { r with value := () }
  | none => .ok ⟨(), line, s.dropWhile fun c => !isBreak c⟩

/-- The tokens of a text, at most `fuel` steps of it. A fault is the last token. -/
def tokensFrom : Nat → Nat → List Char → List Located
  | 0, line, _ => [⟨.fault, line⟩]
  | fuel + 1, line, s =>
    match s with
    | [] => [⟨.finish, line⟩]
    | '-' :: '-' :: rest => match skipComment line rest with
      | .error line => [⟨.fault, line⟩]
      | .ok r => tokensFrom fuel r.line r.rest
    | c :: rest =>
      if isBreak c then tokensFrom fuel (line + 1) (dropBreak s)
      else if Number.isSpace c then tokensFrom fuel line rest
      else match readToken line s with
        | .error line => [⟨.fault, line⟩]
        | .ok r => ⟨r.value, r.line⟩ :: tokensFrom fuel r.line r.rest

/-- **The tokens of a program.** -/
def tokenize (source : List Char) : List Located := tokensFrom (source.length + 1) 1 source

end Stencil.Lua
