/-
The command line program.

The files that a check may look at are read first, and what it has written is
written to the disk in the end.  Interpreters are processes in simulated time.
-/
import LiveDoc.CommandLine
import LiveDoc.Shell.Launch

namespace LiveDoc
namespace Program

/-- The paths that a run of the program may look at. -/
def pathsOf (environment : CommandLine.Environment) (args : List String) : List String :=
  let setup := environment.quickLisp.map fun dir =>
    InterpreterConfig.withoutSlashes dir ++ "/setup.lisp"
  match Invocation.ofArgs args with
  | .check c => [c.config, c.file, environment.tempDir] ++ setup.toList
  | _ => []

def partsOf (path : String) : List String :=
  (Path.parts path).filter fun part => part ≠ "" ∧ part ≠ "."

def entryAt (path : String) : IO (Option Entry) := do
  try
    let content ← IO.FS.readBinFile path
    return some (.file content.toList)
  catch e =>
    match e with
    | .noFileOrDirectory .. => return none
    | _ => return some .directory

def withPath (files : Files) (path : String) : IO Files := do
  match ← entryAt path with
  | none => return files
  | some entry =>
    let place := (if Path.isAbsolute path then [] else files.here) ++ partsOf path
    let parents := (List.range place.length).map fun n => (place.take n, Entry.directory)
    return { files with entries := files.entries ++ parents ++ [(place, entry)] }

def randomName : IO String := do
  let letters := "abcdefghijklmnopqrstuvwxyzABCDEFGHIJKLMNOPQRSTUVWXYZ0123456789".toList
  let mut name := ""
  for _ in [0:6] do
    let i ← IO.rand 0 (letters.length - 1)
    name := name.push (letters.getD i 'a')
  return name

def writeNew (before after : Files) : IO Unit :=
  after.entries.forM fun e => do
    match before.at? e.1, e.2 with
    | none, .file content =>
      IO.FS.writeBinFile (Path.ofParts e.1) (ByteArray.mk content.toArray)
    | _, _ => pure ()

end Program
end LiveDoc

open LiveDoc in
def main (args : List String) : IO UInt32 := do
  let quickLisp ← IO.getEnv "QUICK_LISP"
  let tempDir := (← IO.getEnv "TMPDIR").getD "/tmp"
  let environment : CommandLine.Environment := ⟨quickLisp, tempDir⟩
  let here := Program.partsOf (toString (← IO.currentDir))
  let start : Files := ⟨(List.range (here.length + 1)).map fun n => (here.take n, .directory), here⟩
  let files ← (Program.pathsOf environment args).foldlM Program.withPath start
  let names ← [(), (), ()].mapM fun _ => Program.randomName
  let world := Interpreters.live (Shell.launch files [("TMPDIR", tempDir)])
  let (result, after) :=
    CommandLine.run world SessionError.message ⟨names, []⟩ environment files args
  IO.print (String.ofList result.output)
  IO.eprint result.errors
  Program.writeNew files after
  return UInt32.ofNat result.code
