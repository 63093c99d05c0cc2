import Stencil.Text.Utf8
set_option autoImplicit false

/-!
# Tokens of a template

A template is text with blocks between the markers `<%` and `%>`. The scanner cuts it into
markers, line breaks and single characters. A marker counts only where it can: `<%` outside a
block, `%>` inside one; elsewhere both are two plain characters, so blocks do not nest.

## Main definitions

* `Stencil.Template.LineBreak`, `Lexeme`, `Token` — the pieces, with their place in the source.
* `Stencil.Template.nextLexeme` — the first piece of a text, by the longest match.
* `Stencil.Template.Scan` — the scanner: what is left, where it starts, and in which mode.
* `Stencil.Template.tokenize` — all tokens of a source, up to and with the first end token.

## Main results

* `Stencil.Template.text_append_nextLexeme` — a piece and what is left make up the text.
* `Stencil.Template.text_flatMap_tokensFrom` — the tokens of a source spell the source.
-/

namespace Stencil.Template

/-! ## Pieces -/

/-- The four ways to end a line; a pair of different break characters is one break. -/
inductive LineBreak where
  | lf
  | cr
  | crlf
  | lfcr
  deriving DecidableEq, Repr

/-- The characters of a line break. -/
def LineBreak.text : LineBreak → List Char
  | lf => ['\n']
  | cr => ['\r']
  | crlf => ['\r', '\n']
  | lfcr => ['\n', '\r']

/-- **Pieces of a template.** -/
inductive Lexeme where
  /-- The marker `<%`, outside a block. -/
  | blockStart
  /-- The marker `%>`, inside a block. -/
  | blockEnd
  /-- A line break, in or outside a block. -/
  | lineBreak (b : LineBreak)
  /-- Any other character. -/
  | character (c : Char)
  /-- The end of the source. -/
  | finish
  deriving DecidableEq, Repr

/-- The source text of a piece; the end has none. -/
def Lexeme.text : Lexeme → List Char
  | blockStart => ['<', '%']
  | blockEnd => ['%', '>']
  | lineBreak b => b.text
  | character c => [c]
  | finish => []

/-- By how many lines a piece moves on. -/
def Lexeme.lines : Lexeme → Nat
  | lineBreak _ => 1
  | _ => 0

/-- Whether the scanner stands in a block. -/
inductive Mode where
  | outside
  | inside
  deriving DecidableEq, Repr

/-- The mode behind a piece: the markers switch it and nothing else does. -/
def Mode.after : Mode → Lexeme → Mode
  | _, .blockStart => inside
  | _, .blockEnd => outside
  | m, _ => m

/-! ## The first piece -/

/-- **The first piece of a text, and what is left.** The longest match wins: a marker before a
character, a pair of break characters before one of them. -/
def nextLexeme (mode : Mode) : List Char → Lexeme × List Char
  | [] => (.finish, [])
  | [c] =>
    if c = '\r' then (.lineBreak .cr, []) else
    if c = '\n' then (.lineBreak .lf, []) else (.character c, [])
  | c :: d :: rest =>
    if mode = .outside ∧ c = '<' ∧ d = '%' then (.blockStart, rest) else
    if mode = .inside ∧ c = '%' ∧ d = '>' then (.blockEnd, rest) else
    if c = '\r' then if d = '\n' then (.lineBreak .crlf, rest) else (.lineBreak .cr, d :: rest) else
    if c = '\n' then if d = '\r' then (.lineBreak .lfcr, rest) else (.lineBreak .lf, d :: rest) else
    (.character c, d :: rest)

/-- A piece and what is left make up the text. -/
theorem text_append_nextLexeme (mode : Mode) (s : List Char) :
    (nextLexeme mode s).1.text ++ (nextLexeme mode s).2 = s := by
  match s with
  | [] => rfl
  | [c] =>
    grind [nextLexeme, Lexeme.text, LineBreak.text]
  | c :: d :: rest =>
    grind [nextLexeme, Lexeme.text, LineBreak.text]

/-- Only at the end is there no text to take. -/
theorem nextLexeme_eq_finish_iff (mode : Mode) (s : List Char) :
    (nextLexeme mode s).1 = .finish ↔ s = [] := by
  match s with
  | [] => simp [nextLexeme]
  | [c] => grind [nextLexeme]
  | c :: d :: rest => grind [nextLexeme]

/-- A piece other than the end has text. -/
theorem Lexeme.text_ne_nil {l : Lexeme} (h : l ≠ .finish) : l.text ≠ [] := by
  cases l with
  | lineBreak b => cases b <;> simp [Lexeme.text, LineBreak.text]
  | finish => exact absurd rfl h
  | _ => simp [Lexeme.text]

/-- Each piece shortens the text. -/
theorem length_nextLexeme_lt {mode : Mode} {s : List Char}
    (h : (nextLexeme mode s).1 ≠ .finish) : (nextLexeme mode s).2.length < s.length := by
  have e := congrArg List.length (text_append_nextLexeme mode s)
  have p : 0 < (nextLexeme mode s).1.text.length :=
    List.length_pos_iff.mpr (Lexeme.text_ne_nil h)
  rw [List.length_append] at e
  omega

/-! ## Tokens -/

/-- A piece and where it starts: the byte offset in the source and the line, from 1. -/
structure Token where
  lexeme : Lexeme
  position : Nat
  line : Nat
  deriving DecidableEq, Repr

/-- The source text of a token. -/
def Token.text (t : Token) : List Char := t.lexeme.text

/-- Whether a token is the plain character `c`. -/
def Token.isChar (t : Token) (c : Char) : Bool := t.lexeme == .character c

/-- **The scanner.** The rest of the source, the place where the rest starts, and the mode. -/
structure Scan where
  mode : Mode
  position : Nat
  line : Nat
  rest : List Char
  deriving DecidableEq, Repr

/-- The scanner at the start of a source. -/
def Scan.start (source : List Char) : Scan := ⟨.outside, 0, 1, source⟩

/-- The token at the scanner. -/
def Scan.token (s : Scan) : Token := ⟨(nextLexeme s.mode s.rest).1, s.position, s.line⟩

/-- The scanner behind that token. At the end it stays where it is. -/
def Scan.advance (s : Scan) : Scan where
  mode := s.mode.after s.token.lexeme
  position := s.position + Text.utf8Length s.token.text
  line := s.line + s.token.lexeme.lines
  rest := (nextLexeme s.mode s.rest).2

/-- The tokens from the scanner on, up to and with the first end token. -/
def tokensFrom (s : Scan) : List Token :=
  if _h : s.token.lexeme = .finish then [s.token] else s.token :: tokensFrom s.advance
termination_by s.rest.length
decreasing_by exact length_nextLexeme_lt ‹_›

/-- **All tokens of a source,** up to and with the first end token. -/
def tokenize (source : String) : List Token := tokensFrom (.start source.toList)

/-- The tokens from the scanner on spell what is left of the source. -/
theorem text_flatMap_tokensFrom (s : Scan) : (tokensFrom s).flatMap Token.text = s.rest := by
  fun_induction tokensFrom s with
  | case1 s h =>
    rw [(nextLexeme_eq_finish_iff _ _).mp h]
    simp [Token.text, h, Lexeme.text]
  | case2 s h ih =>
    rw [List.flatMap_cons, ih]
    exact text_append_nextLexeme s.mode s.rest

end Stencil.Template
