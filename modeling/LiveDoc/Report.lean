/-
Reporting a failure.

The code that succeeded before the failure goes into a new file, from which the
state at the failure can be restored.  The diagnostic says how.
-/
import LiveDoc.Config
import LiveDoc.Diagnostic
import LiveDoc.Files
import LiveDoc.Text.Display

namespace LiveDoc

structure ArtifactPlace where
  /-- What the file name starts with, before the underscore. -/
  stem : String
  suffix : String
  dir : String
deriving Repr, Inhabited

/-- What is done to a reproduction file once it has been created. -/
inductive ArtifactStep where
  | write
  | flush
  | keep
deriving Repr, DecidableEq, Inhabited

/-- What is not up to a report: the random parts that are tried for the name of the file,
and the steps that fail, each with what the system says. -/
structure Chance where
  names : List String
  failing : List (ArtifactStep × String)
deriving Repr, Inhabited

structure Report where
  diagnostic : String
  artifact : String
deriving Repr, DecidableEq, Inhabited

inductive ReportError where
  | notAFailure
  | create (e : FileError) (path : String)
  /-- All names that were tried are taken. -/
  | namesTaken (dir : String)
  | step (s : ArtifactStep) (reason path : String)
deriving Repr, DecidableEq, Inhabited

namespace ReportError

def message : ReportError → String
  | .notAFailure => "cannot report a successful example"
  | .create _ _ => "create reproduction file"
  | .namesTaken _ => "create reproduction file"
  | .step .write _ _ => "write reproduction file"
  | .step .flush _ _ => "flush reproduction file"
  | .step .keep _ _ => "keep reproduction file"

def atPath (reason path : String) : String := reason ++ " at path " ++ quoted path

def cause : ReportError → Option String
  | .notAFailure => none
  | .create e path => some (atPath e.message path)
  | .namesTaken dir => some (atPath "too many temporary files exist" dir)
  -- An error of this step wraps that of the system, and both are shown.
  | .step .keep reason _ =>
    some ("failed to persist temporary file path: " ++ reason ++ ": " ++ reason)
  | .step _ reason path => some (atPath reason path)

end ReportError

def reproduction (evaluated : List String) : List Char :=
  joinWith ['\n'] (evaluated.map (·.toList))

namespace ArtifactPlace

def name (place : ArtifactPlace) (unique : String) : String :=
  place.stem ++ "_" ++ unique ++ place.suffix

/-- Its path, which stays the same when the current directory is changed. -/
def path (place : ArtifactPlace) (files : Files) (unique : String) : String :=
  Path.join (files.absolute place.dir) (place.name unique)

end ArtifactPlace

/-- Creates the reproduction file under the first of the names that is not taken: its path
as given and as found, and the files with it. -/
def createArtifact (files : Files) (place : ArtifactPlace) :
    List String → Except ReportError (String × List String × Files)
  | [] => .error (.namesTaken (files.absolute place.dir))
  | unique :: rest =>
    let path := place.path files unique
    match files.locate path with
    | .error e => .error (.create e path)
    | .ok found =>
      match files.create found with
      | .ok created => .ok (path, found, created)
      | .error .exists => createArtifact files place rest
      | .error e => .error (.create e path)

/-- Writes the reproduction file: its path, and the files afterwards.  A file that could not
be finished is removed. -/
def writeReproduction (files : Files) (place : ArtifactPlace) (chance : Chance)
    (evaluated : List String) : Except ReportError String × Files :=
  match createArtifact files place chance.names with
  | .error e => (.error e, files)
  | .ok (path, found, created) =>
    match chance.failing.lookup .write with
    | some reason => (.error (.step .write reason path), created.remove found)
    | none =>
      let written := created.write found (Utf8.encode (reproduction evaluated))
      match chance.failing.lookup .flush, chance.failing.lookup .keep with
      | some reason, _ => (.error (.step .flush reason path), written.remove found)
      | none, some reason => (.error (.step .keep reason path), written.remove found)
      | none, none => (.ok path, written)

def reportFailure (files : Files) (place : ArtifactPlace) (chance : Chance)
    (interpreter : InterpreterConfig) (f : Failure) : Except ReportError Report × Files :=
  if f.verdict.isSuccess then (.error .notAFailure, files)
  else
    match writeReproduction files place chance f.evaluated with
    | (.error e, files) => (.error e, files)
    | (.ok path, files) =>
      (.ok ⟨Diagnostic.render f (interpreter.replayCommand path), path⟩, files)

end LiveDoc
