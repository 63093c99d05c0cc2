import Stencil.CommandLine.Report
set_option autoImplicit false

/-!
# The program

Reads the files below the working directory, runs the command line on them, and prints the
report.
-/

open Stencil

/-- A file or a directory with all that is in it. -/
partial def readEntry (entry : IO.FS.DirEntry) : IO (String × Node) := do
  if ← entry.path.isDir then
    let entries ← (← entry.path.readDir).toList.mapM readEntry
    return (entry.fileName, .directory entries)
  else return (entry.fileName, .file (← IO.FS.readBinFile entry.path))

/-- The files below the working directory, at its place. -/
def readFiles : IO FileSystem := do
  let here ← IO.currentDir
  let entries ← (← here.readDir).toList.mapM readEntry
  let names := (Stencil.Path.mk here.toString).names.map String.ofList
  return ⟨(Node.directory []).insert names (.directory entries), names.reverse⟩

/-- What is printed for a command line that is none. -/
def usage : String :=
  "Usage: codet [-c FILE] [-v] (parse | source | render) TEMPLATE [OPTIONS]"

/-- **The program.** -/
def main (args : List String) : IO UInt32 := do
  let files ← readFiles
  let program ← IO.appPath
  let programDir := (Stencil.Path.mk program.toString).parent.getD ⟨""⟩
  let fallback ← IO.getEnv "CODET_CONFIG"
  match CommandLine.run files programDir fallback args with
  | none =>
    IO.eprintln usage
    return 2
  | some report =>
    IO.print report.output
    report.notes.forM IO.eprintln
    return report.exit.toUInt32
