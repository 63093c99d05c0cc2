import Stencil.Lua.Format
import Stencil.Lua.Library.Base
import Stencil.Lua.Pattern
set_option autoImplicit false

/-!
# Functions on strings

## Main definitions

* `Stencil.Lua.StringFunction.run` — the functions.
* `Stencil.Lua.Search.next` — one match after another.
* `Stencil.Lua.substitute` — the matches of a pattern replaced.
-/

namespace Stencil.Lua

/-! ## Pieces -/

/-- The bytes from one place to another, both included. -/
def slice (b : Bytes) (first last : Nat) : Bytes := (b.take last).drop (first - 1)

/-- A part of a string. -/
def substring (args : Arguments) : Except Objection Bytes := do
  let b ← args.bytes 1
  let first := startPlace b.length (← args.integer 2)
  let last := endPlace b.length (← args.integerOr 3 (-1))
  return slice b first last

/-- The most bytes that a string may have. -/
def maxLength : Nat := 1 <<< 31

/-- A string repeated, with another in between. -/
def repeatBytes (args : Arguments) : Except Objection Bytes := do
  let b ← args.bytes 1
  let n ← args.integer 2
  let separator ← args.bytesOr 3 []
  if maxLength ≤ (b.length + separator.length) * n.toNat then
    .error (.other "resulting string too large")
  else return separator.intercalate (List.replicate n.toNat b)

/-- The numbers of some bytes. -/
def byteNumbers (args : Arguments) : Except Objection Arguments := do
  let b ← args.bytes 1
  let i ← args.integerOr 2 1
  let first := startPlace b.length i
  let last := endPlace b.length (← args.integerOr 3 i)
  return (slice b first last).map fun u => .nat u.toNat

/-- The byte of a number. -/
def byteArgument (args : Arguments) (n : Nat) : Except Objection UInt8 := do
  let i ← args.integer n
  if 0 ≤ i ∧ i < 256 then return i.toNat.toUInt8
  else .error (.argument n "value out of range")

/-- A byte with the case of its letter changed. -/
def mapByte (f : Char → Char) (u : UInt8) : UInt8 := Bytes.byteOf (f (Char.ofNat u.toNat))

/-! ## Matches -/

/-- The value of a capture. -/
def captureValue : Pattern.Capture → Except Objection Value
  | .text b => .ok (.string b)
  | .place n => .ok (.nat n)
  | .unfinished _ => .error (.other "unfinished capture")

/-- The values of a match: those of its parts, or all of it if it has none. -/
def matchValues (subject : Bytes) (m : Pattern.Match) : Except Objection Arguments :=
  match m.captures with
  | [] => .ok [.string (slice subject (m.start + 1) m.stop)]
  | captures => captures.mapM captureValue

/-- The pattern of an argument. -/
def patternArgument (args : Arguments) (n : Nat) : Except Objection Pattern := do
  match Pattern.read (← args.bytes n) with
  | .ok p => .ok p
  | .error message => .error (.other message)

/-- The first place at or behind another where some bytes stand. -/
def findBytes (wanted : Bytes) : Nat → Bytes → Option Nat
  | n, [] => if wanted.isEmpty then some n else none
  | n, b@(_ :: rest) => if wanted.isPrefixOf b then some n else findBytes wanted (n + 1) rest

/-- **A search for a pattern, or for plain bytes.** -/
def searchFor (args : Arguments) (wantsPlaces : Bool) : Except Objection Arguments := do
  let b ← args.bytes 1
  let wanted ← args.bytes 2
  let start := startPlace b.length (← args.integerOr 3 1) - 1
  if b.length < start then return [.nil]
  else if wantsPlaces && (args.value 4).truth then
    match findBytes wanted start (b.drop start) with
    | some n => return [.nat (n + 1), .nat (n + wanted.length)]
    | none => return [.nil]
  else
    let p ← patternArgument args 2
    match p.search b start with
    | none => return [.nil]
    | some m =>
      if wantsPlaces then
        let captures ← m.captures.mapM captureValue
        return .nat (m.start + 1) :: .nat m.stop :: captures
      else matchValues b m

/-- The first match of a search at one of a number of places that does not end where the last
one did. -/
def Search.nextFrom (s : Search) (p : Pattern) : Nat → Nat → Option Pattern.Match
  | 0, _ => none
  | more + 1, start => match p.matchAt s.subject start with
    | some m =>
      if some m.stop = s.last then Search.nextFrom s p more (start + 1) else some m
    | none => Search.nextFrom s p more (start + 1)

/-- **The next match of a search,** and the search behind it. -/
def Search.next (s : Search) : Except Objection (Option (Pattern.Match × Search)) :=
  match Pattern.readItems s.pattern.length (Bytes.numbered s.pattern) with
  | .error message => .error (.other message)
  | .ok items =>
    let found := s.nextFrom ⟨false, items⟩ (s.subject.length + 1 - s.start) s.start
    .ok (found.map fun m => (m, { s with start := m.stop, last := some m.stop }))

/-! ## Replacements -/

/-- What a replacement text says for a match, at most `fuel` characters of it. -/
def expand (subject : Bytes) (m : Pattern.Match) : Nat → List Char → Except Objection Bytes
  | 0, _ | _, [] => .ok []
  | fuel + 1, '%' :: c :: s => do
    let piece ←
      if c = '%' then .ok [Bytes.byteOf '%']
      else if c = '0' then .ok (slice subject (m.start + 1) m.stop)
      else if c.isDigit then do
        match (← matchValues subject m)[c.toNat - '1'.toNat]? with
        | some v => .ok v.display
        | none => .error (.other "invalid capture index in replacement string")
      else .error (.other "invalid use of '%' in replacement string")
    return piece ++ (← expand subject m fuel s)
  | _ + 1, ['%'] => .error (.other "invalid use of '%' in replacement string")
  | fuel + 1, c :: s => (expand subject m fuel s).map (Bytes.byteOf c :: ·)

/-- The value that a replacement gives for a match: an entry of a table, an expanded text, or the
result of a function. -/
def replacementValue (call : Caller) (trace : Trace) (given : Value) (subject : Bytes)
    (m : Pattern.Match) : Run Value :=
  match given with
  | .table n => do
    let values ← Run.check trace "gsub" (matchValues subject m)
    return (← Run.table n).get (values.headD .nil)
  | .string b => do
    return .string (← Run.check trace "gsub" (expand subject m b.length (Bytes.numbered b)))
  | .number n => return .string (Bytes.ofChars n.text)
  | f => do
    let values ← Run.check trace "gsub" (matchValues subject m)
    return (← call trace.cross f values).headD .nil

/-- What a match is replaced by. A value that is `nil` or `false` leaves it. -/
def replacement (call : Caller) (trace : Trace) (given : Value) (subject : Bytes)
    (m : Pattern.Match) : Run Bytes := do
  let v ← replacementValue call trace given subject m
  if v.truth then
    match v.bytes? with
    | some b => return b
    | none => Run.fail trace s!"invalid replacement value (a {v.typeName})"
  else return slice subject (m.start + 1) m.stop

/-- **The matches of a pattern replaced,** from a place on and at most a number of them; and how
many there were. -/
def substitute (call : Caller) (trace : Trace) (p : Pattern) (given : Value) (subject : Bytes) :
    Nat → Nat → Nat → Option Nat → Run (Bytes × Nat)
  | 0, start, _, _ => return (subject.drop start, 0)
  | fuel + 1, start, limit, last => do
    if limit = 0 then return (subject.drop start, 0)
    else match p.matchAt subject start with
      | some m =>
        if some m.stop = last then passed fuel start limit last
        else
          let b ← replacement call trace given subject m
          if p.anchored then return (b ++ subject.drop m.stop, 1)
          else
            let (rest, count) ←
              substitute call trace p given subject fuel m.stop (limit - 1) (some m.stop)
            return (b ++ rest, count + 1)
      | none => passed fuel start limit last
where
  /-- The replacements behind one byte that stays. -/
  passed (fuel start limit : Nat) (last : Option Nat) : Run (Bytes × Nat) := do
    if p.anchored then return (subject.drop start, 0)
    else match subject[start]? with
      | none => return ([], 0)
      | some u => do
        let (rest, count) ← substitute call trace p given subject fuel (start + 1) limit last
        return (u :: rest, count)

/-! ## The functions -/

/-- **The functions on strings.** -/
def StringFunction.run (call : Caller) (trace : Trace) (f : StringFunction) (args : Arguments) :
    Run Arguments :=
  let check {α : Type} (e : Except Objection α) : Run α := Run.check trace f.name e
  match f with
  | .byte => check (byteNumbers args)
  | .char => do
    let bs ← check ((List.range args.length).mapM fun i => byteArgument args (i + 1))
    return [.string bs]
  | .find => check (searchFor args true)
  | .format => return [.string (← check (formatted args))]
  | .gmatch => do
    let b ← check (args.bytes 1)
    let p ← check (args.bytes 2)
    let start := startPlace b.length (← check (args.integerOr 3 1)) - 1
    return [← Run.newSearch ⟨b, p, start, none⟩]
  | .gsub => do
    let b ← check (args.bytes 1)
    let p ← check (patternArgument args 2)
    let limit ← check (args.integerOr 4 (b.length + 1))
    match args.value 3 with
    | .nil | .bool _ | .failure _ =>
      check (.error (args.expected 3 "string/function/table"))
    | given => do
      let (r, count) ← substitute call trace p given b (2 * b.length + 2) 0 limit.toNat none
      return [.string r, .nat count]
  | .len => return [.nat (← check (args.bytes 1)).length]
  | .lower => return [.string ((← check (args.bytes 1)).map (mapByte Char.toLower))]
  | .«match» => check (searchFor args false)
  | .rep => return [.string (← check (repeatBytes args))]
  | .reverse => return [.string (← check (args.bytes 1)).reverse]
  | .sub => return [.string (← check (substring args))]
  | .upper => return [.string ((← check (args.bytes 1)).map (mapByte Char.toUpper))]

/-- The next match of a search of the machine, as the results of a call. -/
def runSearch (trace : Trace) (n : Nat) : Run Arguments := do
  let m ← Run.get
  match m.searches[n]? with
  | none => return [.nil]
  | some s => match ← Run.check trace "gmatch" s.next with
    | none => return [.nil]
    | some (found, s) => do
      Run.setSearch n s
      Run.check trace "gmatch" (matchValues s.subject found)

end Stencil.Lua
