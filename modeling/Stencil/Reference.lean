import Stencil.FileSystem
import Stencil.StateType
set_option autoImplicit false

/-!
# Library references

A program is compiled against the libraries of the host, which are always there, and against
those that the template names, which are files.

## Main definitions

* `Stencil.LibraryReference` — a library, its path, and who asked for it.
* `Stencil.resolvePath` — where a named library is.
* `Stencil.resolveReferences` — all references of a compilation.
-/

namespace Stencil

/-- Who asked for a library. -/
inductive Origin where
  | host
  | directive
  deriving DecidableEq, Repr

/-- **A library of a compilation.** -/
structure LibraryReference where
  name : String
  path : Path
  origin : Origin
  deriving DecidableEq, Repr

namespace LibraryReference

/-- A library of the host; its path is its name. -/
def host (name : String) : LibraryReference := ⟨name, ⟨name⟩, .host⟩

/-- Whether a library is one of the host. -/
def isHost (r : LibraryReference) : Bool := r.origin == .host

end LibraryReference

/-- The library that runs programs. -/
def coreLibrary : String := "lua54"

/-- The library that gives programs access to the host. -/
def supportLibrary : String := "codet"

/-- **Where a library is.** An absolute name is its own path. A relative one is taken in the
runtime directory if a file is there, and as it stands otherwise. -/
def resolvePath (fs : FileSystem) (runtimeDir : Option Path) (name : String) : Path :=
  let path : Path := ⟨name⟩
  if path.isAbsolute then path
  else match runtimeDir with
    | none => path
    | some dir => if fs.isFile (dir.join path) then dir.join path else path

/-- A list without the references whose name has come before. -/
def dropRepeated (seen : List String) : List LibraryReference → List LibraryReference
  | [] => []
  | r :: rs =>
    if r.name ∈ seen then dropRepeated seen rs else r :: dropRepeated (r.name :: seen) rs

/-- The names of the libraries of the host. -/
def hostLibraries (stateType : StateType) : List String :=
  [coreLibrary, supportLibrary, stateType.library].filter (· ≠ "")

/-- **All references of a compilation:** those of the host, then the declared ones; of several
with one name, the first. -/
def resolveReferences (fs : FileSystem) (runtimeDir : Option Path) (stateType : StateType)
    (declared : List String) : List LibraryReference :=
  let host := (hostLibraries stateType).map LibraryReference.host
  let named := declared.map fun name =>
    (⟨name, resolvePath fs runtimeDir name, .directive⟩ : LibraryReference)
  dropRepeated [] (host ++ named)

end Stencil
