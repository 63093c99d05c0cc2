import Stencil.Template.Token
import Stencil.Template.SyntaxError
set_option autoImplicit false

/-!
# Parts of a template

A template is a sequence of parts: literal texts and blocks, each block with its markers. A
line break right behind a block is dropped, so that a line that holds only a block leaves no
empty line; a block that begins with `<%=` writes a value and keeps it.

## Main definitions

* `Stencil.Template.Part` — a literal or a block, with its place and the break dropped behind it.
* `Stencil.Template.Part.ofTokens` — the parts of a token sequence.
* `Stencil.Template.split` — the parts of a source.
* `Stencil.Template.Part.rawText` — a part as it stands in the source.
-/

namespace Stencil.Template

/-! ## Parts -/

/-- **A literal or a block,** the byte offset and the line of its first character, and the line
break that was dropped behind it. -/
structure Part where
  text : String
  skippedBreak : Option String
  position : Nat
  line : Nat
  deriving DecidableEq, Repr

namespace Part

/-- Whether a text begins like a block. -/
def isBlockText (text : String) : Bool := "<%".toList.isPrefixOf text.toList

/-- Whether a text begins like a directive. -/
def isDirectiveText (text : String) : Bool := "<%@".toList.isPrefixOf text.toList

/-- Whether a part is a block. -/
def isCode (p : Part) : Bool := isBlockText p.text

/-- Whether a part is a directive. -/
def isDirective (p : Part) : Bool := isDirectiveText p.text

/-- A part as it stands in the source. -/
def rawText (p : Part) : String := p.text ++ p.skippedBreak.getD ""

end Part

/-! ## From tokens to parts -/

/-- Whether a token is a plain piece of text, which neither opens nor closes a block nor ends
the source. -/
def Token.isPlain (t : Token) : Bool :=
  match t.lexeme with
  | .lineBreak _ | .character _ => true
  | _ => false

/-- The source text of a token sequence. -/
def spell (ts : List Token) : List Char := ts.flatMap Token.text

/-- Where a token cannot stand. -/
def Token.unexpected (t : Token) : SyntaxError :=
  .unexpectedToken (String.ofList t.text) t.position t.line

/-- Whether the tokens inside a block begin with the sign of a value block. -/
def writesValue : List Token → Bool
  | [] => false
  | t :: _ => t.isChar '='

/-- The line break that is dropped behind a block, from the tokens inside the block and those
behind it. -/
def droppedBreak (inner : List Token) : List Token → Option LineBreak
  | [] => none
  | t :: _ => match writesValue inner, t.lexeme with
    | false, .lineBreak b => some b
    | _, _ => none

/-- The tokens behind a block and the line break that is dropped with it. -/
def afterBlock (inner rest : List Token) : List Token :=
  if (droppedBreak inner rest).isSome then rest.tail else rest

theorem length_afterBlock_le (inner rest : List Token) :
    (afterBlock inner rest).length ≤ rest.length := by
  unfold afterBlock
  split <;> simp

/-- **The parts of a token sequence.** A block runs from its opening marker to the next closing
one; a literal runs to the next marker. -/
def Part.ofTokens : List Token → Except SyntaxError (List Part)
  | [] => .ok []
  | t :: ts =>
    have shorter : (ts.dropWhile Token.isPlain).length ≤ ts.length :=
      (List.dropWhile_suffix Token.isPlain).length_le
    match t.lexeme with
    | .finish => .ok []
    | .blockEnd => .error t.unexpected
    | .blockStart =>
      let inner := ts.takeWhile Token.isPlain
      match h : ts.dropWhile Token.isPlain with
      | [] => .error (.unterminatedBlock t.position t.line)
      | e :: rest =>
        have : (afterBlock inner rest).length < (t :: ts).length := by
          have := length_afterBlock_le inner rest
          simp only [h, List.length_cons] at shorter ⊢
          omega
        match e.lexeme with
        | .blockEnd => do
          let parts ← Part.ofTokens (afterBlock inner rest)
          .ok ({ text := String.ofList (t.text ++ spell inner ++ e.text)
                 skippedBreak := (droppedBreak inner rest).map fun b => String.ofList b.text
                 position := t.position
                 line := t.line } :: parts)
        | .blockStart => .error e.unexpected
        | _ => .error (.unterminatedBlock t.position t.line)
    | _ => do
      let parts ← Part.ofTokens (ts.dropWhile Token.isPlain)
      .ok ({ text := String.ofList (spell (t :: ts.takeWhile Token.isPlain))
             skippedBreak := none
             position := t.position
             line := t.line } :: parts)
termination_by ts => ts.length
decreasing_by
  · exact this
  · exact Nat.lt_succ_of_le shorter

/-- **The parts of a source.** -/
def split (source : String) : Except SyntaxError (List Part) := Part.ofTokens (tokenize source)

end Stencil.Template
