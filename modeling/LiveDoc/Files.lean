/-
Paths, files and directories.

The tree of files is a list of absolute paths with what they lead to; the root is
always there.  Only what a check needs can be done: reading a file, and creating
one under a name that is not taken.
-/
import LiveDoc.Text.Utf8

namespace LiveDoc

namespace Path

def isAbsolute (path : String) : Bool := path.toList.head? == some '/'

def pieces (path : String) : List String := (path.toList.splitOn '/').map String.ofList

/-- The names in a path, from the root or from the current directory on. -/
def parts (path : String) : List String :=
  if isAbsolute path then (pieces path).drop 1 else pieces path

def ofParts (names : List String) : String := "/" ++ "/".intercalate names

/-- The path of a file in a directory.  An absolute name stays as it is. -/
def join (dir name : String) : String :=
  if isAbsolute name || dir.isEmpty then name
  else if dir.toList.getLast? == some '/' then dir ++ name
  else dir ++ "/" ++ name

/-- The last part of a path, `none` if it does not name anything. -/
def fileName? (path : String) : Option String :=
  match ((parts path).filter fun part => part ≠ "" ∧ part ≠ ".").getLast? with
  | some name => if name = ".." then none else some name
  | none => none

/-- A file name without its last extension.  A full stop at the start begins none. -/
def withoutExtension (name : List Char) : List Char :=
  match name.reverse.dropWhile (· != '.') with
  | _ :: stem => if stem.isEmpty then name else stem.reverse
  | [] => name

/-- The name that files about a document start with. -/
def stem (path : String) : String :=
  match fileName? path with
  | some name => String.ofList (withoutExtension name.toList)
  | none => "document"

end Path

inductive Entry where
  | file (content : Bytes)
  | directory
deriving Repr, DecidableEq, Inhabited

inductive FileError where
  | notFound
  | notDirectory
  | isDirectory
  | exists
  | nameTooLong
  | notAName
  | notText
deriving Repr, DecidableEq, Inhabited

def FileError.message : FileError → String
  | .notFound => "No such file or directory (os error 2)"
  | .notDirectory => "Not a directory (os error 20)"
  | .isDirectory => "Is a directory (os error 21)"
  | .exists => "File exists (os error 17)"
  | .nameTooLong => "File name too long (os error 36)"
  | .notAName => "file name contained an unexpected NUL byte"
  | .notText => "stream did not contain valid UTF-8"

/-- A tree of files and the directory that relative paths start from. -/
structure Files where
  entries : List (List String × Entry)
  here : List String
deriving Repr, Inhabited

namespace Files

def maxNameBytes : Nat := 255

def at? (f : Files) (path : List String) : Option Entry :=
  if path.isEmpty then some .directory else f.entries.lookup path

/-- Follows the parts of a path from a directory or file. -/
def follow (f : Files) (start : List String) : List String → Except FileError (List String)
  | [] => .ok start
  | part :: rest =>
    match f.at? start with
    | none => .error .notFound
    | some (.file _) => .error .notDirectory
    | some .directory =>
      if part = "" ∨ part = "." then follow f start rest
      else if part = ".." then follow f start.dropLast rest
      else if maxNameBytes < part.utf8ByteSize then .error .nameTooLong
      else follow f (start ++ [part]) rest

def locate (f : Files) (path : String) : Except FileError (List String) :=
  if path.isEmpty then .error .notFound
  else if '\x00' ∈ path.toList then .error .notAName
  else f.follow (if Path.isAbsolute path then [] else f.here) (Path.parts path)

/-- A path that does not depend on the current directory. -/
def absolute (f : Files) (path : String) : String :=
  if Path.isAbsolute path then path else Path.join (Path.ofParts f.here) path

def read (f : Files) (path : String) : Except FileError Bytes :=
  match f.locate path with
  | .error e => .error e
  | .ok p =>
    match f.at? p with
    | none => .error .notFound
    | some .directory => .error .isDirectory
    | some (.file content) => .ok content

def readText (f : Files) (path : String) : Except FileError String :=
  match f.read path with
  | .error e => .error e
  | .ok content =>
    match Utf8.decode? content with
    | some s => .ok (String.ofList s)
    | none => .error .notText

def exists? (f : Files) (path : String) : Bool :=
  match f.locate path with
  | .ok p => (f.at? p).isSome
  | .error _ => false

/-- Creates an empty file.  Its directory must be there and its name must not be taken. -/
def create (f : Files) (path : List String) : Except FileError Files :=
  match f.at? path with
  | some _ => .error .exists
  | none =>
    match f.at? path.dropLast with
    | some .directory => .ok { f with entries := f.entries ++ [(path, .file [])] }
    | some (.file _) => .error .notDirectory
    | none => .error .notFound

def write (f : Files) (path : List String) (content : Bytes) : Files :=
  { f with entries := f.entries.map fun e => if e.1 = path then (path, .file content) else e }

def remove (f : Files) (path : List String) : Files :=
  { f with entries := f.entries.filter fun e => e.1 ≠ path }

end Files

end LiveDoc
