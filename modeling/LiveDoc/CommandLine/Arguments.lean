/-
The arguments of the command line.
-/
import LiveDoc.Binary64

namespace LiveDoc

structure CheckCommand where
  timeout : Option Binary64
  config : String
  file : String
deriving Repr, DecidableEq, Inhabited

inductive Invocation where
  | check (c : CheckCommand)
  | help
  | version
  | misuse
deriving Repr, DecidableEq, Inhabited

namespace Invocation

structure Given where
  timeout : Option Binary64
  config : Option String
  file : Option String
deriving Inhabited

def defaultConfig : String := "replcheck.toml"

def Given.finish (g : Given) : Invocation :=
  match g.file with
  | some file => .check ⟨g.timeout, g.config.getD defaultConfig, file⟩
  | none => .misuse

/-- Takes the value of an option.  Each may be given once. -/
def Given.option? (g : Given) (name value : String) : Option Given :=
  match name with
  | "timeout" =>
    match g.timeout, Binary64.ofText? value.toList with
    | none, some seconds => some { g with timeout := some seconds }
    | _, _ => none
  | "config" =>
    if g.config.isNone && !value.isEmpty then some { g with config := some value } else none
  | _ => none

def Given.file? (g : Given) (file : String) : Option Given :=
  if g.file.isNone && !file.isEmpty then some { g with file := some file } else none

inductive Argument where
  /-- Two hyphens alone: no options come behind them. -/
  | ends
  | long (name : String) (value : Option String)
  | short (letters : List Char)
  | plain (value : String)
deriving Repr, DecidableEq, Inhabited

def Argument.ofText (a : String) : Argument :=
  match a.toList with
  | ['-', '-'] => .ends
  | '-' :: '-' :: rest =>
    let name := rest.takeWhile (· != '=')
    let value := if name.length < rest.length then
        some (String.ofList (rest.drop (name.length + 1)))
      else none
    .long (String.ofList name) value
  | '-' :: c :: rest => .short (c :: rest)
  | _ => .plain a

def readFiles (g : Given) : List String → Invocation
  | [] => g.finish
  | a :: rest =>
    match g.file? a with
    | some g => readFiles g rest
    | none => .misuse

/-- Reads arguments.  The first one that decides, or makes no sense, counts. -/
def read (g : Given) : List String → Invocation
  | [] => g.finish
  | a :: rest =>
    match Argument.ofText a with
    | .ends => readFiles g rest
    | .plain file =>
      match g.file? file with
      | some g => read g rest
      | none => .misuse
    | .short letters =>
      match letters with
      | 'h' :: _ => .help
      | 'V' :: _ => .version
      | _ => .misuse
    | .long "help" none => .help
    | .long "version" none => .version
    | .long name (some value) =>
      match g.option? name value with
      | some g => read g rest
      | none => .misuse
    | .long name none =>
      match rest with
      | value :: rest =>
        match Argument.ofText value with
        | .plain value =>
          match g.option? name value with
          | some g => read g rest
          | none => .misuse
        | _ => .misuse
      | [] => .misuse

def ofArgs (args : List String) : Invocation := read ⟨none, none, none⟩ args

end Invocation
end LiveDoc
