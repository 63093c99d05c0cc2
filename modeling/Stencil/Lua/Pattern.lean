import Stencil.Lua.Bytes
set_option autoImplicit false

/-!
# Patterns of strings

A pattern is a sequence of items, each of which matches some bytes of a subject. Repetitions try
the longest run first, or the shortest where that is asked for.

## Main definitions

* `Stencil.Lua.ByteClass` — sets of bytes.
* `Stencil.Lua.Pattern` — patterns, read by `Pattern.read`.
* `Stencil.Lua.Pattern.matchAt` — a match at one place of a subject.
* `Stencil.Lua.Pattern.search` — the first match at or behind a place.
-/

namespace Stencil.Lua

/-! ## Classes -/

/-- The classes of bytes that have a letter. -/
inductive NamedClass where
  | letter | control | digit | visible | lower | punctuation | space | upper | alphanumeric | hex
  deriving DecidableEq, Repr

namespace NamedClass

/-- Whether a byte is between two characters. -/
def between (low high : Char) (b : UInt8) : Bool := Bytes.byteOf low ≤ b && b ≤ Bytes.byteOf high

/-- Whether a byte is in a class. -/
def contains : NamedClass → UInt8 → Bool
  | letter, b => between 'A' 'Z' b || between 'a' 'z' b
  | control, b => between '\x00' '\x1f' b || b == 127
  | digit, b => between '0' '9' b
  | visible, b => between '!' '~' b
  | lower, b => between 'a' 'z' b
  | punctuation, b =>
    between '!' '/' b || between ':' '@' b || between '[' '\x60' b || between '\x7b' '~' b
  | space, b => b == 32 || between '\t' '\r' b
  | upper, b => between 'A' 'Z' b
  | alphanumeric, b => between 'A' 'Z' b || between 'a' 'z' b || between '0' '9' b
  | hex, b => between '0' '9' b || between 'A' 'F' b || between 'a' 'f' b

/-- The class of a small letter. -/
def ofLetter? : Char → Option NamedClass
  | 'a' => some letter
  | 'c' => some control
  | 'd' => some digit
  | 'g' => some visible
  | 'l' => some lower
  | 'p' => some punctuation
  | 's' => some space
  | 'u' => some upper
  | 'w' => some alphanumeric
  | 'x' => some hex
  | _ => none

end NamedClass

/-- **Sets of bytes.** -/
inductive ByteClass where
  | any
  | byte (b : UInt8)
  | range (low high : UInt8)
  | named (c : NamedClass) (negated : Bool)
  | set (items : List ByteClass) (negated : Bool)

namespace ByteClass

mutual

/-- Whether a byte is in a set. -/
def contains : ByteClass → UInt8 → Bool
  | any, _ => true
  | byte a, b => a == b
  | range low high, b => low ≤ b && b ≤ high
  | named c negated, b => c.contains b != negated
  | set items negated, b => someContains items b != negated

/-- Whether a byte is in one of some sets. -/
def someContains : List ByteClass → UInt8 → Bool
  | [], _ => false
  | c :: cs, b => contains c b || someContains cs b

end

/-- The set that a character behind a percent sign stands for: the class of its letter, what is
not in it for a capital letter, and else the character itself. -/
def ofEscape (c : Char) : ByteClass :=
  match NamedClass.ofLetter? c.toLower with
  | some k => named k c.isUpper
  | none => byte (Bytes.byteOf c)

end ByteClass

/-! ## Patterns -/

/-- How often a set is to match. -/
inductive Repeat where
  | once
  | optional
  | many
  | atLeastOnce
  | fewest
  deriving DecidableEq, Repr

/-- The items of a pattern. -/
inductive PatternItem where
  | class (c : ByteClass) (often : Repeat)
  | opening
  | closing
  | place
  | earlier (index : Nat)
  | balanced (first last : UInt8)
  | frontier (c : ByteClass)
  | atEnd

/-- **Patterns.** An anchored pattern matches only where a search begins. -/
structure Pattern where
  anchored : Bool
  items : List PatternItem

namespace Pattern

/-! ## Reading -/

/-- The sets inside brackets up to the closing one, at most `fuel` of them. A closing bracket at
the very front stands for itself. -/
def readSet : Nat → Bool → List Char → Except String (List ByteClass × List Char)
  | 0, _, _ | _, _, [] => .error "malformed pattern (missing ']')"
  | _ + 1, false, ']' :: p => .ok ([], p)
  | _ + 1, _, ['%'] => .error "malformed pattern (missing ']')"
  | fuel + 1, _, '%' :: c :: p => do
    let (cs, rest) ← readSet fuel false p
    return (.ofEscape c :: cs, rest)
  | fuel + 1, _, c :: p => match p with
    | '-' :: high :: q =>
      if high = ']' then do
        let (cs, rest) ← readSet fuel false p
        return (.byte (Bytes.byteOf c) :: cs, rest)
      else do
        let (cs, rest) ← readSet fuel false q
        return (.range (Bytes.byteOf c) (Bytes.byteOf high) :: cs, rest)
    | _ => do
      let (cs, rest) ← readSet fuel false p
      return (.byte (Bytes.byteOf c) :: cs, rest)

/-- A set behind its opening bracket. -/
def readBrackets (p : List Char) : Except String (ByteClass × List Char) :=
  match p with
  | '^' :: q => (readSet (q.length + 1) true q).map fun (cs, rest) => (.set cs true, rest)
  | _ => (readSet (p.length + 1) true p).map fun (cs, rest) => (.set cs false, rest)

/-- How often the set before a place of the pattern is to match. -/
def readRepeat : List Char → Repeat × List Char
  | '?' :: p => (.optional, p)
  | '*' :: p => (.many, p)
  | '+' :: p => (.atLeastOnce, p)
  | '-' :: p => (.fewest, p)
  | p => (.once, p)

/-- A set and how often it is to match, and what follows. -/
def repeated (c : ByteClass) (p : List Char) : PatternItem × List Char :=
  let (often, p) := readRepeat p
  (.class c often, p)

/-- **The item at the front of a pattern** that is not empty, and what follows it. -/
def readItem (c : Char) (p : List Char) : Except String (PatternItem × List Char) :=
  match c, p with
  | '(', ')' :: p => .ok (.place, p)
  | '(', p => .ok (.opening, p)
  | ')', p => .ok (.closing, p)
  | '$', [] => .ok (.atEnd, [])
  | '[', p => (readBrackets p).map fun (s, p) => repeated s p
  | '.', p => .ok (repeated .any p)
  | '%', [] => .error "malformed pattern (ends with '%')"
  | '%', 'b' :: first :: last :: p =>
    .ok (.balanced (Bytes.byteOf first) (Bytes.byteOf last), p)
  | '%', 'b' :: _ => .error "malformed pattern (missing arguments to '%b')"
  | '%', 'f' :: '[' :: p => (readBrackets p).map fun (s, p) => (.frontier s, p)
  | '%', 'f' :: _ => .error "missing '[' after '%f' in pattern"
  | '%', e :: p =>
    if '1' ≤ e ∧ e ≤ '9' then .ok (.earlier (e.toNat - '1'.toNat), p)
    else .ok (repeated (.ofEscape e) p)
  | c, p => .ok (repeated (.byte (Bytes.byteOf c)) p)

/-- The items of a pattern, at most `fuel` of them. -/
def readItems : Nat → List Char → Except String (List PatternItem)
  | 0, _ | _, [] => .ok []
  | fuel + 1, c :: p => do
    let (item, p) ← readItem c p
    let items ← readItems fuel p
    return item :: items

/-- **The pattern that a string spells.** -/
def read (p : Bytes) : Except String Pattern :=
  match Bytes.numbered p with
  | '^' :: q => (readItems q.length q).map (Pattern.mk true)
  | q => (readItems q.length q).map (Pattern.mk false)

/-! ## Matching -/

/-- A place in a subject: its number, the byte before it, and what follows it. -/
structure Cursor where
  position : Nat
  before : UInt8
  rest : Bytes

namespace Cursor

/-- The place at a number of bytes of a subject. -/
def ofPosition (subject : Bytes) (n : Nat) : Cursor :=
  ⟨n, if n = 0 then 0 else subject.getD (n - 1) 0, subject.drop n⟩

/-- The place one byte on. -/
def next (c : Cursor) : Cursor := ⟨c.position + 1, c.rest.headD 0, c.rest.tail⟩

/-- The place behind a byte of a set. -/
def step (s : ByteClass) (c : Cursor) : Option Cursor :=
  match c.rest with
  | b :: _ => if s.contains b then some c.next else none
  | [] => none

/-- The places behind any number of bytes of a set, the nearest first. -/
def steps (s : ByteClass) : Nat → Cursor → List Cursor
  | 0, c => [c]
  | n + 1, c => match c.step s with
    | some d => c :: steps s n d
    | none => [c]

/-- The place a number of bytes on. -/
def skip (n : Nat) (c : Cursor) : Cursor :=
  if n = 0 then c
  else ⟨c.position + n, c.rest.getD (n - 1) 0, c.rest.drop n⟩

/-- The number of bytes of a balanced text, from inside a number of its openings. -/
def balancedLength (first last : UInt8) : Nat → Bytes → Option Nat
  | _, [] => none
  | depth, b :: rest =>
    if b = last then
      if depth = 1 then some 1 else (balancedLength first last (depth - 1) rest).map (· + 1)
    else if b = first then (balancedLength first last (depth + 1) rest).map (· + 1)
    else (balancedLength first last depth rest).map (· + 1)

end Cursor

/-- What a part of a pattern has matched: the place where it begins, and its bytes; none while
the part is open. -/
inductive Capture where
  | unfinished (start : Cursor)
  | text (b : Bytes)
  | place (position : Nat)

/-- The captures with the last open one closed at a place. -/
def close (last : Cursor) (captures : List Capture) : Option (List Capture) :=
  match captures.reverse.span fun c => match c with
    | .unfinished _ => false
    | _ => true with
  | (after, .unfinished start :: before) =>
    let b := start.rest.take (last.position - start.position)
    some (before.reverse ++ .text b :: after.reverse)
  | _ => none

/-- **A match of items at a place:** the place behind it, and what the parts have matched. At
most `fuel` items and steps of the repetitions that want the fewest. -/
def run : Nat → List PatternItem → Cursor → List Capture → Option (Cursor × List Capture)
  | 0, _, _, _ => none
  | _ + 1, [], c, caps => some (c, caps)
  | fuel + 1, item :: items, c, caps =>
    match item with
    | .opening => run fuel items c (caps ++ [.unfinished c])
    | .place => run fuel items c (caps ++ [.place (c.position + 1)])
    | .closing => match close c caps with
      | some caps => run fuel items c caps
      | none => none
    | .atEnd => if c.rest.isEmpty then some (c, caps) else none
    | .earlier n => match caps[n]? with
      | some (.text b) =>
        if b.isPrefixOf c.rest then run fuel items (c.skip b.length) caps else none
      | _ => none
    | .balanced first last => match c.rest with
      | b :: rest =>
        if b = first then
          match Cursor.balancedLength first last 1 rest with
          | some n => run fuel items (c.skip (n + 1)) caps
          | none => none
        else none
      | [] => none
    | .frontier s =>
      if !s.contains c.before && s.contains (c.rest.headD 0) then run fuel items c caps else none
    | .class s .once => match c.step s with
      | some d => run fuel items d caps
      | none => none
    | .class s .optional => match c.step s with
      | some d => match run fuel items d caps with
        | some r => some r
        | none => run fuel items c caps
      | none => run fuel items c caps
    | .class s .many =>
      (Cursor.steps s c.rest.length c).reverse.findSome? fun d => run fuel items d caps
    | .class s .atLeastOnce => match c.step s with
      | some d => (Cursor.steps s d.rest.length d).reverse.findSome? fun e => run fuel items e caps
      | none => none
    | .class s .fewest => match run fuel items c caps with
      | some r => some r
      | none => match c.step s with
        | some d => run fuel (item :: items) d caps
        | none => none

/-- What a match has found: where it begins and ends, and what its parts have matched. -/
structure Match where
  start : Nat
  stop : Nat
  captures : List Capture

/-- **The match at one place** of a subject. -/
def matchAt (p : Pattern) (subject : Bytes) (start : Nat) : Option Match :=
  let c := Cursor.ofPosition subject start
  (run (p.items.length + subject.length + 1) p.items c []).map fun (d, caps) =>
    ⟨start, d.position, caps⟩

/-- The first match at one of a number of places. -/
def searchFrom (p : Pattern) (subject : Bytes) : Nat → Nat → Option Match
  | 0, start => p.matchAt subject start
  | more + 1, start => match p.matchAt subject start with
    | some r => some r
    | none => searchFrom p subject more (start + 1)

/-- **The first match at or behind a place.** -/
def search (p : Pattern) (subject : Bytes) (start : Nat) : Option Match :=
  searchFrom p subject (if p.anchored then 0 else subject.length - start) start

end Pattern

end Stencil.Lua
