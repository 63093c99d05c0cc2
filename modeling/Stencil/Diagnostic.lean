set_option autoImplicit false

/-!
# Diagnostics

What a backend reports about a program that it does not accept.

## Main definitions

* `Stencil.Severity`, `Stencil.Diagnostic` — one report.
* `Stencil.Rejection` — a program with the reports about it.
* `Stencil.Rejection.message` — all reports in one line.
-/

namespace Stencil

/-- How bad a report is. -/
inductive Severity where
  | error
  | warning
  deriving DecidableEq, Repr

/-- The word for a severity. -/
def Severity.word : Severity → String
  | error => "error"
  | warning => "warning"

/-- **One report** about a program, with the line of the program if it is known. -/
structure Diagnostic where
  severity : Severity
  message : String
  line : Option Nat
  deriving DecidableEq, Repr

namespace Diagnostic

/-- An error without a line. -/
def error (message : String) : Diagnostic := ⟨.error, message, none⟩

/-- An error at a line. -/
def errorAt (line : Nat) (message : String) : Diagnostic := ⟨.error, message, some line⟩

/-- A warning without a line. -/
def warning (message : String) : Diagnostic := ⟨.warning, message, none⟩

/-- Whether a report is an error. -/
def isError (d : Diagnostic) : Bool := d.severity == .error

/-- A report in one line. -/
def text (d : Diagnostic) : String :=
  match d.line with
  | some n => s!"{d.severity.word} (line {n}): {d.message}"
  | none => s!"{d.severity.word}: {d.message}"

end Diagnostic

/-- **A rejected program** and what was reported about it. -/
structure Rejection where
  program : String
  diagnostics : List Diagnostic
  deriving DecidableEq, Repr

namespace Rejection

/-- The reports that are errors. -/
def errors (r : Rejection) : List Diagnostic := r.diagnostics.filter Diagnostic.isError

/-- All reports in one line. -/
def message (r : Rejection) : String :=
  "errors during compilation of template: " ++
    if r.diagnostics.isEmpty then "no diagnostics reported"
    else "; ".intercalate (r.diagnostics.map Diagnostic.text)

end Rejection

end Stencil
