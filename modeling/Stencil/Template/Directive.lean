import Stencil.Text.Ascii
import Stencil.Text.Blank
import Stencil.Template.Part
import Stencil.Path
set_option autoImplicit false

/-!
# Directives

A block that begins with `<%@` is a directive. Two kinds exist: an include asks for named
content when the template is rendered, a configuration directive is one key and one value for
the compiler.

## Main definitions

* `Stencil.Template.interior` — what a directive says, between its markers.
* `Stencil.Template.DirectiveKind`, `classify` — includes and configuration directives.
* `Stencil.Template.includeName` — the name that an include asks for.
* `Stencil.Template.Directive`, `Directive.ofPart` — a key and its value.
* `Stencil.Template.normalizeLanguage` — the one spelling of each known language.
* `Stencil.Template.withLibrarySuffix` — a library name with its suffix.
-/

namespace Stencil.Template

/-! ## What a directive says -/

/-- The opening of a directive. -/
def directiveStart : List Char := ['<', '%', '@']

/-- The closing marker. -/
def blockEndText : List Char := ['%', '>']

/-- A text without `pattern` at its end. -/
def dropEnd? (pattern s : List Char) : Option (List Char) :=
  if pattern.isSuffixOf s then some (s.take (s.length - pattern.length)) else none

/-- **What a directive says:** the text between its markers, trimmed. A text that does not open
like a directive says nothing; the closing marker may be missing. -/
def interior (text : List Char) : List Char :=
  if directiveStart.isPrefixOf text then
    let rest := text.drop directiveStart.length
    Text.trim ((dropEnd? blockEndText rest).getD rest)
  else []

/-! ## Includes and configuration -/

/-- The two kinds of directives. -/
inductive DirectiveKind where
  /-- Content that is asked for when the template is rendered. -/
  | inclusion
  /-- A setting that the compiler takes. -/
  | configuration
  deriving DecidableEq, Repr

/-- The word that opens an include, with the blank behind it. -/
def includeWord : List Char := "include ".toList

/-- **The kind of a directive;** none for any other text. -/
def classify (text : List Char) : Option DirectiveKind :=
  if directiveStart.isPrefixOf text then
    if Text.eqIgnoringCase ((interior text).take includeWord.length) includeWord then
      some .inclusion
    else some .configuration
  else none

/-- A text without the quotes around it, if both its ends are the quote `q`. -/
def unquoteWith (q : Char) : List Char → Option (List Char)
  | [] => none
  | c :: rest => if c = q then dropEnd? [q] rest else none

/-- A text without double or single quotes around it. -/
def unquote (name : List Char) : List Char :=
  ((unquoteWith '"' name).or (unquoteWith '\'' name)).getD name

/-- **The name that an include asks for:** what follows the first eight bytes of the directive,
trimmed and without quotes. -/
def includeName (text : List Char) : Option (List Char) :=
  (Text.dropBytes includeWord.length (interior text)).map fun rest => unquote (Text.trim rest)

/-! ## Keys and values -/

/-- **A configuration directive:** one key and one value. -/
structure Directive where
  key : String
  value : String
  deriving DecidableEq, Repr

/-- The kind of a part. -/
def Part.kind (p : Part) : Option DirectiveKind := classify p.text.toList

/-- The key and the value of a part, which must be its only words. -/
def Directive.ofPart (p : Part) : Except SyntaxError Directive :=
  let body := interior p.text.toList
  match Text.words body with
  | [key, value] => .ok ⟨String.ofList key, String.ofList value⟩
  | _ => .error (.invalidDirective (String.ofList body) p.position p.line)

/-! ## Languages -/

/-- The identifiers of the known languages. -/
def csharp35 : String := "C#v3.5"

@[inherit_doc csharp35] def csharp40 : String := "C#v4.0"

@[inherit_doc csharp35] def lua54 : String := "Lua5.4"

/-- The known spellings of each language, in capitals. -/
def languageAliases : List (String × List String) :=
  [(csharp35, ["C#", "C#V3.5", "C#3.5"]),
   (csharp40, ["C#V4.0", "C#4", "C#V4", "C#4.0"]),
   (lua54, ["LUA", "LUA5.4", "LUA54"])]

/-- **The one spelling of a language.** A name that is a known spelling in any letter case
becomes the identifier of its language; any other name stays. No letter outside ASCII has one of
the letters of these names as its capital, so the case of ASCII letters is all that counts. -/
def normalizeLanguage (value : String) : String :=
  let capitals := String.ofList (Text.upperAscii value.toList)
  match languageAliases.find? fun entry => entry.2.contains capitals with
  | some (identifier, _) => identifier
  | none => value

/-! ## Libraries -/

/-- **A library name with its suffix,** which is appended unless the name has it as its extension
in any letter case. -/
def withLibrarySuffix (reference suffix : String) : String :=
  let carries := match (Path.mk reference).extension with
    | some ext => Text.eqIgnoringCase ('.' :: ext) suffix.toList
    | none => false
  if carries || suffix.isEmpty then reference else reference ++ suffix

end Stencil.Template
