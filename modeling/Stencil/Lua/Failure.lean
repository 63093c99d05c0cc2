import Stencil.Error
import Stencil.Number.Reading
import Stencil.Text.Blank
import Stencil.Text.Split
set_option autoImplicit false

/-!
# Failures of Lua programs

A program fails by not being well formed, by an error while it runs, or by an error of the host
that a call into the host brought up. The text of a failure may name a line of the program, which
is then lifted into the diagnostic.

## Main definitions

* `Stencil.Lua.Failure` — the failures.
* `Stencil.Lua.splitLocation` — the line that a text names, and what follows it.
* `Stencil.Lua.Failure.diagnostic` — a failure as a diagnostic.
-/

namespace Stencil.Lua

/-! ## Failures -/

/-- **Why a program fails.** -/
inductive Failure where
  | malformed (message : String)
  | runtime (message : String)
  | memory (message : String)
  /-- An error of the host. -/
  | host (cause : Error)
  deriving DecidableEq, Repr

/-- The text of a failure. -/
def Failure.text : Failure → String
  | malformed message => "syntax error: " ++ message
  | runtime message => "runtime error: " ++ message
  | memory message => "memory error: " ++ message
  | host cause => cause.message

/-! ## Lines -/

/-- A text without one carriage return at its end. -/
def dropReturn (s : List Char) : List Char := if s.getLast? = some '\r' then s.dropLast else s

/-- **The first line of a text.** A line ends at a line feed or at a carriage return with one
behind it. -/
def firstLine (s : List Char) : List Char :=
  match Text.splitFirst '\n' s with
  | (line, none) => line
  | (line, some _) => dropReturn line

/-- The name under which programs are run. -/
def chunkName : String := "template"

/-- The greatest number of a line. -/
def maxLine : Nat := UInt64.size - 1

/-- **The line that a text names,** which is the number behind the first mention of the program
with a colon, and what follows it. -/
def splitLocation (message : List Char) : Option (Nat × List Char) :=
  match Text.findText (chunkName.toList ++ [':']) message with
  | none => none
  | some (_, rest) =>
    let digits := rest.takeWhile Char.isDigit
    let line := Number.natOfDigits 10 digits
    if digits.isEmpty ∨ maxLine < line then none
    else
      let tail := (rest.dropWhile Char.isDigit).dropWhile (· == ':')
      some (line, Text.trimStart tail)

/-- **A failure as a diagnostic:** the first line of its text, with the line of the program if it
names one. -/
def Failure.diagnostic (f : Failure) : Diagnostic :=
  let message := firstLine f.text.toList
  match splitLocation message with
  | some (line, rest) => .errorAt line (String.ofList rest)
  | none => .error (String.ofList message)

end Stencil.Lua
