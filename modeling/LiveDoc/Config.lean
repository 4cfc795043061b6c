/-
The settings of a check.
-/
import LiveDoc.Text.CharClass

namespace LiveDoc

structure InterpreterConfig where
  command : String
  args : List String
  /-- What the interpreter prints at the start of a line when it is ready. -/
  prompt : String
  loadFlag : String
  /-- The extension of reproduction files. -/
  artifactSuffix : String
deriving Repr, DecidableEq, Inhabited

/-- The settings of a check.  Times are in milliseconds. -/
structure Config where
  /-- The tag of the code blocks that are examples. -/
  language : String
  evalTimeout : Nat
  startupTimeout : Nat
  shutdownGrace : Nat
  interpreter : InterpreterConfig
deriving Repr, DecidableEq, Inhabited

inductive ConfigFault where
  | emptyLanguage
  | zeroEvalTimeout
  | zeroStartupTimeout
  | emptyCommand
  | emptyPrompt
deriving Repr, DecidableEq, Inhabited

def ConfigFault.message : ConfigFault → String
  | .emptyLanguage => "language must be non-empty"
  | .zeroEvalTimeout => "eval_timeout_ms must be > 0"
  | .zeroStartupTimeout => "startup_timeout_ms must be > 0"
  | .emptyCommand => "interpreter.command must be non-empty"
  | .emptyPrompt => "interpreter.prompt must be non-empty"

namespace InterpreterConfig

def default : InterpreterConfig := ⟨"sbcl", [], "* ", "--load", ".lisp"⟩

def withoutSlashes (dir : String) : String :=
  String.ofList (dir.toList.reverse.dropWhile (· == '/')).reverse

/-- The arguments to start the interpreter with.  If none are configured, it loads the
library manager from the directory `quickLisp`, if there is one. -/
def startupArgs (c : InterpreterConfig) (quickLisp : Option String) : List String :=
  if c.args ≠ [] then c.args
  else
    match quickLisp with
    | some dir => if dir = "" then [] else [c.loadFlag, withoutSlashes dir ++ "/setup.lisp"]
    | none => []

/-- The command line that loads a file into a fresh interpreter. -/
def replayCommand (c : InterpreterConfig) (artifact : String) : String :=
  c.command ++ " " ++ c.loadFlag ++ " " ++ artifact

end InterpreterConfig

namespace Config

def default : Config := ⟨"lisp", 30000, 60000, 2000, .default⟩

def fault? (c : Config) : Option ConfigFault :=
  if isBlankText c.language then some .emptyLanguage
  else if c.evalTimeout = 0 then some .zeroEvalTimeout
  else if c.startupTimeout = 0 then some .zeroStartupTimeout
  else if isBlankText c.interpreter.command then some .emptyCommand
  else if c.interpreter.prompt = "" then some .emptyPrompt
  else none

end Config
end LiveDoc
