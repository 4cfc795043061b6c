/-
Loading a configuration file.
-/
import LiveDoc.Config.Settings
import LiveDoc.Files
import LiveDoc.Toml.Document

namespace LiveDoc

inductive ConfigError where
  | unreadable (path : String) (cause : FileError)
  /-- The text of the file is no well-formed document, or a setting in it is of the wrong kind. -/
  | malformed (path : String) (text : String)
  | invalid (fault : ConfigFault)
deriving Repr, DecidableEq, Inhabited

namespace ConfigError

def message : ConfigError → String
  | .unreadable path _ => "read " ++ path
  | .malformed path _ => "parse " ++ path
  | .invalid fault => fault.message

/-- `explain` is what a reader of documents says of a text that it refuses. -/
def cause (explain : String → String) : ConfigError → Option String
  | .unreadable _ e => some e.message
  | .malformed _ text => some (explain text)
  | .invalid _ => none

end ConfigError

namespace Config

def validated (c : Config) : Except ConfigError Config :=
  match c.fault? with
  | some fault => .error (.invalid fault)
  | none => .ok c

def ofText? (text : String) : Option Config :=
  (Toml.parse? text.toList).bind ofEntries?

/-- The configuration in a file, or the default if there is no such file. -/
def load (files : Files) (path : String) : Except ConfigError Config :=
  if files.exists? path then
    match files.readText path with
    | .error e => .error (.unreadable path e)
    | .ok text =>
      match ofText? text with
      | none => .error (.malformed path text)
      | some c => c.validated
  else Config.default.validated

end Config
end LiveDoc
