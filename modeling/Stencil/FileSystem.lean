import Stencil.Path
set_option autoImplicit false

/-!
# Files

The file system that a program sees: a tree of files and directories, and the directory in it that
the program works in.

## Main definitions

* `Stencil.Node` — a file or a directory.
* `Stencil.Place` — where a node is, as the names on the way to it.
* `Stencil.FileSystem` — a tree, and the place of the working directory.
* `Stencil.FileSystem.find` — what a path leads to.
* `Stencil.FileSystem.readText`, `isFile` — the two questions a program asks.
* `Stencil.FileError` — why a path cannot be read.
-/

namespace Stencil

/-- **Why a file cannot be read.** -/
inductive FileError where
  | notFound
  | notDirectory
  | isDirectory
  | nameTooLong
  | nulInName
  | notUtf8
  deriving DecidableEq, Repr

/-- The text of an error. -/
def FileError.message : FileError → String
  | notFound => "No such file or directory (os error 2)"
  | notDirectory => "Not a directory (os error 20)"
  | isDirectory => "Is a directory (os error 21)"
  | nameTooLong => "File name too long (os error 36)"
  | nulInName => "file name contained an unexpected NUL byte"
  | notUtf8 => "stream did not contain valid UTF-8"

/-! ## Trees -/

/-- **A file or a directory.** -/
inductive Node where
  | file (content : ByteArray)
  | directory (entries : List (String × Node))

namespace Node

/-- Whether an entry of a directory can have the name. -/
def isEntryName (name : String) : Bool :=
  let s := name.toList
  !Path.isVoid s && s != ['.', '.'] && !s.contains '/' && !s.contains '\x00' &&
    decide (name.utf8ByteSize ≤ 255)

/-- The entry of a directory with the given name. -/
def child? : Node → String → Option Node
  | file _, _ => none
  | directory entries, name => if isEntryName name then entries.lookup name else none

/-- The node with `value` below it at the given names; directories on the way are made. -/
def insert (node : Node) : List String → Node → Node
  | [], value => value
  | name :: rest, value =>
    let entries := match node with
      | file _ => []
      | directory entries => entries
    let below := (entries.lookup name).getD (directory [])
    directory ((name, below.insert rest value) :: entries.filter (·.1 != name))

end Node

/-- **Where a node is:** the names on the way to it from the root, the last one first. -/
abbrev Place := List String

/-- **What a program sees of the file system.** -/
structure FileSystem where
  root : Node
  workingDirectory : Place

namespace FileSystem

/-- An empty working directory, with nothing beside it. -/
def empty : FileSystem := ⟨.directory [("work", .directory [])], ["work"]⟩

/-- The file system with a node at the given names below the working directory. -/
def insert (fs : FileSystem) (names : List String) (value : Node) : FileSystem :=
  { fs with root := fs.root.insert (fs.workingDirectory.reverse ++ names) value }

/-- The node at a place. -/
def node? (fs : FileSystem) : Place → Option Node
  | [] => some fs.root
  | name :: above => (fs.node? above).bind (·.child? name)

/-! ## Paths -/

/-- **One step of a walk.** Two dots lead up, and stay at the root; a name leads to an entry. -/
def enter (fs : FileSystem) (place : Place) (piece : List Char) : Except FileError Place :=
  match fs.node? place with
  | none => .error .notFound
  | some (.file _) => .error .notDirectory
  | some (.directory _) =>
    if Path.isVoid piece then .ok place
    else if piece = ['.', '.'] then .ok place.tail
    else if 255 < (String.ofList piece).utf8ByteSize then .error .nameTooLong
    else if (fs.node? (String.ofList piece :: place)).isSome then .ok (String.ofList piece :: place)
    else .error .notFound

/-- Where the way of a path starts. -/
def start (fs : FileSystem) (p : Path) : Place := if p.isAbsolute then [] else fs.workingDirectory

/-- **What a path leads to.** -/
def find (fs : FileSystem) (p : Path) : Except FileError Node :=
  if p.text.toList.contains '\x00' then .error .nulInName
  else if p.text = "" then .error .notFound
  else if 4096 ≤ p.text.utf8ByteSize then .error .nameTooLong
  else
    match (Text.splitOn '/' p.text.toList).foldlM fs.enter (fs.start p) with
    | .error e => .error e
    | .ok place => match fs.node? place with
      | some n => .ok n
      | none => .error .notFound

/-- Whether a path leads to a file. -/
def isFile (fs : FileSystem) (p : Path) : Bool :=
  match fs.find p with
  | .ok (.file _) => true
  | _ => false

/-- **The text of a file.** -/
def readText (fs : FileSystem) (p : Path) : Except FileError String :=
  match fs.find p with
  | .error e => .error e
  | .ok (.directory _) => .error .isDirectory
  | .ok (.file content) => match String.fromUTF8? content with
    | some text => .ok text
    | none => .error .notUtf8

end FileSystem

end Stencil
