import Stencil.Proofs.Template.Tokenization
import Stencil.Template.Cursor
set_option autoImplicit false

/-!
# Driving a cursor

A cursor can be looked at and moved on in two ways, in any order. Whatever the order, the tokens
that are taken are the tokens of the source and then its end token for ever; what is looked at is
the token to come.

## Main definitions

* `Stencil.Template.endToken`, `stream` — the end token of a source, and its tokens for ever.
* `Stencil.Template.Cursor.Call`, `Answer`, `Dialogue` — the ways to drive a cursor, what they
  answer, and a cursor with all it has answered.
* `Stencil.Template.Cursor.Dialogue.Follows` — the cursor is where the answers say.
* `Stencil.Template.Cursor.Dialogue.Faithful` — the answers so far, and those of the next call, are
  the ones that the stream gives.

## Main results

* `Stencil.Template.stream_eq` — a token of the stream is the one at the scanner after as many
  moves.
* `Stencil.Template.Cursor.Dialogue.Follows.call`, `Follows.calls` — each call keeps the cursor
  where the answers say.
* `Stencil.Template.Cursor.Dialogue.faithful_calls` — every way of driving sees the same stream.
-/

namespace Stencil.Template

open Stencil.Text

/-! ## The stream of a source -/

/-- The end token of a source: it sits at the end, behind all line breaks. -/
def endToken (source : String) : Token :=
  ⟨.finish, utf8Length source.toList, 1 + breakCount ((tokenize source).map Token.raw)⟩

/-- **The tokens of a source for ever:** behind the last token comes the end token again and
again. -/
def stream (source : String) (n : Nat) : Token := (tokenize source).getD n (endToken source)

/-- The number of tokens that open a block. -/
def opened (ts : List Token) : Nat := ts.countP (·.lexeme = .blockStart)

/-- The number of tokens that close a block. -/
def closed (ts : List Token) : Nat := ts.countP (·.lexeme = .blockEnd)

/-- The scanner after a number of moves. -/
def Scan.after (s : Scan) : Nat → Scan
  | 0 => s
  | n + 1 => (s.after n).advance

theorem Scan.after_succ (s : Scan) (n : Nat) : s.after (n + 1) = s.advance.after n := by
  induction n with
  | zero => rfl
  | succ n ih => exact congrArg Scan.advance ih

/-- At the end the scanner stays where it is. -/
theorem Scan.advance_of_finish {s : Scan} (h : s.token.lexeme = .finish) : s.advance = s := by
  obtain ⟨m, position, line, rest⟩ := s
  obtain rfl : rest = [] := (nextLexeme_eq_finish_iff m rest).mp h
  rfl

theorem Scan.after_of_finish {s : Scan} (h : s.token.lexeme = .finish) (n : Nat) :
    s.after n = s := by
  induction n with
  | zero => rfl
  | succ n ih => rw [Scan.after, ih, Scan.advance_of_finish h]

/-- The tokens from the scanner on, one after another: behind the last comes any token `e` that is
the end token. -/
theorem getD_tokensFrom (s : Scan) {e : Token} (he : (tokensFrom s).getLast? = some e) (n : Nat) :
    (tokensFrom s).getD n e = (s.after n).token := by
  fun_induction tokensFrom s generalizing n with
  | case1 s h =>
    obtain rfl : s.token = e := by simpa using he
    rw [Scan.after_of_finish h]
    cases n <;> rfl
  | case2 s h ih =>
    cases n with
    | zero => rfl
    | succ n =>
      rw [List.getD_cons_succ, Scan.after_succ]
      refine ih ?_ n
      obtain ⟨before, hsplit, -⟩ := exists_tokensFrom_eq s.advance
      rw [List.getLast?_cons, hsplit] at he
      rw [hsplit]
      simpa using he

/-- **The tokens of a source end with its end token,** and with no end token before it. -/
theorem exists_tokenize_eq (source : String) : ∃ before,
    tokenize source = before ++ [endToken source] ∧ ∀ t ∈ before, t.lexeme ≠ .finish := by
  obtain ⟨before, hsplit, hbefore⟩ := exists_tokensFrom_eq (.start source.toList)
  refine ⟨before, hsplit.trans ?_, hbefore⟩
  simp [Scan.start, endToken, tokenize]

/-- **A token of the stream** is the one at the scanner after as many moves. -/
theorem stream_eq (source : String) (n : Nat) :
    stream source n = ((Scan.start source.toList).after n).token := by
  obtain ⟨before, hsplit, -⟩ := exists_tokenize_eq source
  exact getD_tokensFrom _ (by rw [← tokenize, hsplit]; simp) n

/-- The first tokens of the stream. -/
def streamTake (source : String) (n : Nat) : List Token := (List.range n).map (stream source)

@[simp] theorem length_streamTake (source : String) (n : Nat) :
    (streamTake source n).length = n := by
  simp [streamTake]

theorem streamTake_succ (source : String) (n : Nat) :
    streamTake source (n + 1) = streamTake source n ++ [stream source n] := by
  simp [streamTake, List.range_succ]

/-- **The scanner is inside a block** exactly when more blocks have been opened than closed. -/
theorem mode_after_iff (source : String) (n : Nat) :
    ((Scan.start source.toList).after n).mode = .inside ↔
      closed (streamTake source n) < opened (streamTake source n) := by
  -- Outside of blocks, as many have been opened as closed; inside there is one more.
  suffices h : opened (streamTake source n) = closed (streamTake source n) +
      if ((Scan.start source.toList).after n).mode = .inside then 1 else 0 by
    rw [h]
    split <;> simp_all
  induction n with
  | zero => rfl
  | succ n ih =>
    have hstep : ((Scan.start source.toList).after (n + 1)).mode =
        ((Scan.start source.toList).after n).mode.after (stream source n).lexeme := by
      rw [stream_eq]
      rfl
    have hswitch : (stream source n).lexeme.kind.isMarker = true →
        (stream source n).lexeme = ((Scan.start source.toList).after n).mode.switch := by
      rw [stream_eq]
      exact switch_of_nextLexeme
    rw [streamTake_succ, opened, closed, List.countP_append, List.countP_append, hstep]
    rw [opened, closed] at ih
    clear hstep
    generalize ((Scan.start source.toList).after n).mode = m at ih hswitch
    generalize stream source n = t at hswitch
    obtain ⟨l, position, line⟩ := t
    cases m <;> cases l <;>
      simp_all [Lexeme.kind, Kind.isMarker, Mode.switch, Mode.after]

/-! ## Calls and answers -/

namespace Cursor

/-- **The ways to drive a cursor.** -/
inductive Call where
  | peek
  | next
  | hasMore
  | mode
  | iterate
  deriving DecidableEq, Repr

/-- What a call answers. -/
inductive Answer where
  | seen (t : Token)
  | taken (t : Token)
  | more (b : Bool)
  | within (m : Mode)
  | yielded (t : Option Token)
  deriving DecidableEq, Repr

/-- The token that is taken with an answer. -/
def Answer.token? : Answer → Option Token
  | taken t => some t
  | yielded t => t
  | _ => none

/-- The answer of a call, and the cursor behind it. -/
def call (c : Cursor) : Call → Answer × Cursor
  | .peek => (.seen c.peek, c)
  | .next => (.taken c.next.1, c.next.2)
  | .hasMore => (.more c.hasMore, c)
  | .mode => (.within c.mode, c)
  | .iterate => (.yielded c.iterate.1, c.iterate.2)

/-- **A cursor with all it has answered.** -/
structure Dialogue where
  answers : List Answer
  cursor : Cursor

namespace Dialogue

/-- The beginning, in front of the first token of a source. -/
def start (source : String) : Dialogue := ⟨[], Cursor.start source⟩

/-- The dialogue behind one more call. -/
def call (d : Dialogue) (k : Call) : Dialogue :=
  ⟨d.answers ++ [(d.cursor.call k).1], (d.cursor.call k).2⟩

/-- The dialogue behind a sequence of calls. -/
def calls (d : Dialogue) (ks : List Call) : Dialogue := ks.foldl call d

/-- The tokens that have been taken, in either way. -/
def taken (d : Dialogue) : List Token := d.answers.filterMap Answer.token?

/-- Whether `iterate` has given an end token. -/
def Ended (d : Dialogue) : Prop := ∃ t, .yielded (some t) ∈ d.answers ∧ t.lexeme = .finish

/-- **The cursor is where the answers say:** as many tokens have been taken as the scanner has been
moved, and `iterate` knows whether it has given the end. -/
structure Follows (source : String) (d : Dialogue) : Prop where
  taken : d.taken = streamTake source d.taken.length
  ahead : d.cursor.ahead = stream source d.taken.length
  scan : d.cursor.scan = (Scan.start source.toList).after (d.taken.length + 1)
  exhausted : d.cursor.exhausted = true ↔ d.Ended

/-- **What a cursor owes to those who drive it.** -/
structure Faithful (source : String) (d : Dialogue) : Prop where
  /-- What has been taken is the beginning of the stream. -/
  taken : d.taken = streamTake source d.taken.length
  /-- What is to come is the next token of the stream. -/
  peek : d.cursor.peek = stream source d.taken.length
  next : d.cursor.next.1 = d.cursor.peek
  iterate : ∀ t, d.cursor.iterate.1 = some t → t = d.cursor.peek
  /-- To look changes nothing. -/
  unmoved : ∀ k ∈ [Call.peek, .hasMore, .mode], (d.call k).cursor = d.cursor
  hasMore : d.cursor.hasMore = true ↔ d.cursor.peek.lexeme ≠ .finish
  /-- `iterate` stops once it has given an end token itself, and then changes nothing. -/
  stops : d.cursor.iterate.1 = none ↔ d.Ended
  stopped : d.cursor.iterate.1 = none → (d.call .iterate).cursor = d.cursor
  /-- The mode is that behind the token to come. -/
  mode : d.cursor.mode = .inside ↔
    closed (d.taken ++ [d.cursor.peek]) < opened (d.taken ++ [d.cursor.peek])

variable {source : String} {d : Dialogue}

/-- The cursor starts in front of the first token. -/
theorem follows_start (source : String) : (start source).Follows source where
  taken := rfl
  ahead := (stream_eq source 0).symm
  scan := rfl
  exhausted := by simp [start, Cursor.start, Ended]

/-- A call takes the token of its answer, if that has one. -/
theorem taken_call (d : Dialogue) (k : Call) :
    (d.call k).taken = d.taken ++ (d.cursor.call k).1.token?.toList := by
  cases h : (d.cursor.call k).1.token? <;>
    simp [taken, call, List.filterMap_append, h]

/-- `iterate` has given the end before a call, or gives it now. -/
theorem ended_call (d : Dialogue) (k : Call) : (d.call k).Ended ↔
    d.Ended ∨ ∃ t, (d.cursor.call k).1 = .yielded (some t) ∧ t.lexeme = .finish := by
  simp only [Ended, call, List.mem_append, List.mem_singleton, or_and_right, exists_or]
  simp only [eq_comm]

namespace Follows

/-- A call that takes nothing leaves the cursor where the answers say. -/
theorem stay (h : d.Follows source) {k : Call} (hcursor : (d.cursor.call k).2 = d.cursor)
    (hanswer : (d.cursor.call k).1.token? = none) : (d.call k).Follows source := by
  have htaken : (d.call k).taken = d.taken := by
    rw [taken_call, hanswer, Option.toList_none, List.append_nil]
  have hended : (d.call k).Ended ↔ d.Ended := by
    rw [ended_call, or_iff_left]
    rintro ⟨t, ht, -⟩
    rw [ht] at hanswer
    cases hanswer
  constructor
  · rw [htaken]
    exact h.taken
  · rw [htaken]
    exact (congrArg Cursor.ahead hcursor).trans h.ahead
  · rw [htaken]
    exact (congrArg Cursor.scan hcursor).trans h.scan
  · rw [hended, ← h.exhausted]
    exact iff_of_eq (congrArg (Cursor.exhausted · = true) hcursor)

/-- A call that takes the token to come moves the cursor on by one. -/
theorem move (h : d.Follows source) {k : Call} {ended : Bool}
    (hcursor : (d.cursor.call k).2 = ⟨d.cursor.scan.token, d.cursor.scan.advance, ended⟩)
    (hanswer : (d.cursor.call k).1.token? = some d.cursor.ahead)
    (hended : ended = true ↔ (d.call k).Ended) : (d.call k).Follows source := by
  have htaken : (d.call k).taken = d.taken ++ [stream source d.taken.length] := by
    rw [taken_call, hanswer, h.ahead, Option.toList_some]
  have hlength : (d.call k).taken.length = d.taken.length + 1 := by
    rw [htaken, List.length_append, List.length_singleton]
  constructor
  · rw [hlength, streamTake_succ, ← h.taken]
    exact htaken
  · rw [hlength, stream_eq, ← h.scan]
    exact congrArg Cursor.ahead hcursor
  · rw [hlength, Scan.after, ← h.scan]
    exact congrArg Cursor.scan hcursor
  · rw [← hended]
    exact iff_of_eq (congrArg (Cursor.exhausted · = true) hcursor)

/-- **A call keeps the cursor where the answers say.** -/
theorem call (h : d.Follows source) (k : Call) : (d.call k).Follows source := by
  cases k with
  | peek => exact h.stay rfl rfl
  | hasMore => exact h.stay rfl rfl
  | mode => exact h.stay rfl rfl
  | next =>
    refine h.move rfl rfl ?_
    rw [h.exhausted, ended_call, or_iff_left]
    rintro ⟨t, ht, -⟩
    cases ht
  | iterate =>
    cases hdone : d.cursor.exhausted with
    | true =>
      have hiterate : d.cursor.iterate = (none, d.cursor) := by rw [iterate, if_pos hdone]
      exact h.stay (by rw [Cursor.call, hiterate]) (by rw [Cursor.call, hiterate]; rfl)
    | false =>
      have hiterate : d.cursor.iterate = (some d.cursor.ahead,
          ⟨d.cursor.scan.token, d.cursor.scan.advance, d.cursor.ahead.lexeme == .finish⟩) := by
        rw [iterate, if_neg (by simp [hdone])]
        rfl
      refine h.move (by rw [Cursor.call, hiterate]) (by rw [Cursor.call, hiterate]; rfl) ?_
      have hbefore : ¬ d.Ended := by rw [← h.exhausted, hdone]; simp
      rw [ended_call, or_iff_right hbefore, Cursor.call, hiterate]
      simp

/-- **Calls keep the cursor where the answers say.** -/
theorem calls (h : d.Follows source) (ks : List Call) : (d.calls ks).Follows source := by
  induction ks generalizing d with
  | nil => exact h
  | cons k ks ih => exact ih (h.call k)

/-- A cursor that is where the answers say answers from the stream. -/
theorem faithful (h : d.Follows source) : d.Faithful source where
  taken := h.taken
  peek := h.ahead
  next := rfl
  iterate := by
    intro t ht
    rw [Cursor.iterate] at ht
    split at ht
    · cases ht
    · exact (Option.some.inj ht).symm
  unmoved := by
    simp only [List.forall_mem_cons]
    exact ⟨rfl, rfl, rfl, by simp⟩
  hasMore := by simp [Cursor.hasMore, peek]
  stops := by
    rw [← h.exhausted, Cursor.iterate]
    split <;> simp_all
  stopped := by
    intro hnone
    rw [Cursor.iterate] at hnone
    split at hnone
    case isTrue hdone =>
      show d.cursor.iterate.2 = d.cursor
      rw [Cursor.iterate, if_pos hdone]
    case isFalse => cases hnone
  mode := by
    have hmode := mode_after_iff source (d.taken.length + 1)
    rw [streamTake_succ, ← h.taken, ← h.ahead, ← h.scan] at hmode
    exact hmode

end Follows

/-- **Every way of driving a cursor sees the same stream.** After any calls, what has been taken is
the beginning of the stream and each next call answers from its next token; the stream is the tokens
of the source up to the end token, and then that token for ever. -/
theorem faithful_calls (source : String) :
    (∃ before, tokenize source = before ++ [endToken source] ∧
        ∀ t ∈ before, t.lexeme ≠ .finish) ∧
      ∀ ks : List Call, ((start source).calls ks).Faithful source :=
  ⟨exists_tokenize_eq source, fun ks => ((follows_start source).calls ks).faithful⟩

end Dialogue

end Cursor

end Stencil.Template
