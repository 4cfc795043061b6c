/-
The program as a whole: from its arguments to what it prints and its exit code.
-/
import LiveDoc.Check
import LiveDoc.CommandLine.Arguments
import LiveDoc.Config.Load
import LiveDoc.Config.Timeout

namespace LiveDoc
namespace CommandLine

def codeOk : Nat := 0
def codeFailed : Nat := 1
/-- The check could not be carried out. -/
def codeInvalid : Nat := 2

structure Result where
  code : Nat
  output : List Char
  errors : String
deriving Repr, DecidableEq, Inhabited

def helpText : String := "\n".intercalate
  ["Check that Lisp examples in a Markdown file run in a REPL and print the documented output",
   "",
   "Usage: replcheck [OPTIONS] <FILE>",
   "",
   "Arguments:",
   "  <FILE>  Markdown file to check",
   "",
   "Options:",
   "      --timeout <TIMEOUT>  Seconds allowed for each example (overrides the config file)",
   "      --config <CONFIG>    Config file; defaults apply when it does not exist [default: replcheck.toml]",
   "  -h, --help               Print help",
   "  -V, --version            Print version",
   ""]

def versionText : String := "replcheck 0.1.0\n"

def misuseText : String :=
  "error: invalid arguments\n\nUsage: replcheck [OPTIONS] <FILE>\n\nFor more information, try '--help'.\n"

def withCause (message : String) : Option String → String
  | some cause => message ++ ": " ++ cause
  | none => message

def passedLine (file : String) (examples : Nat) : String :=
  "check: file=" ++ file ++ " examples=" ++ toString examples ++ " passed=" ++ toString examples
    ++ "\n"

def failedLine (file : String) (f : Failure) : String :=
  "check: file=" ++ file ++ " example=#" ++ toString f.number ++ " verdict=" ++ f.verdict.label
    ++ "\n"

/-- What is outside the program: variables of its environment. -/
structure Environment where
  /-- The directory of a library manager. -/
  quickLisp : Option String
  tempDir : String
deriving Repr, Inhabited

/-- What is said of a text that is no configuration, where nobody says more. -/
def unexplained : String → String := fun _ => "TOML parse error"

def configuration (explain : String → String) (files : Files) (c : CheckCommand) :
    Except String Config :=
  match Config.load files c.config with
  | .error e => .error (withCause e.message (e.cause explain))
  | .ok config =>
    match c.timeout with
    | none => .ok config
    | some seconds =>
      match config.withEvalSeconds seconds with
      | .error e => .error (withCause e.message e.cause)
      | .ok config => .ok config

variable {σ ε : Type}

/-- Carries out a check: the result, and the files afterwards.  `ofInterpreter` is what is
printed for an error of the interpreter, and `explain` for a text that is no configuration. -/
def runCheck (world : Interpreters σ ε) (ofInterpreter : ε → String) (chance : Chance)
    (environment : Environment) (explain : String → String) (files : Files) (c : CheckCommand) :
    Result × Files :=
  match configuration explain files c with
  | .error message => (⟨codeInvalid, [], message ++ "\n"⟩, files)
  | .ok config =>
    let request : CheckRequest :=
      ⟨c.file, config, environment.quickLisp, environment.tempDir⟩
    match check world .unlimited chance files request [] with
    | (.error e, transcript, files) =>
      (⟨codeInvalid, transcript, withCause (e.message ofInterpreter) e.cause ++ "\n"⟩, files)
    | (.ok (.passed n), transcript, files) =>
      (⟨codeOk, transcript ++ (passedLine c.file n).toList, ""⟩, files)
    | (.ok (.failed f report), transcript, files) =>
      (⟨codeFailed, transcript, failedLine c.file f ++ report.diagnostic ++ "\n"⟩, files)

def run (world : Interpreters σ ε) (ofInterpreter : ε → String) (chance : Chance)
    (environment : Environment) (files : Files) (args : List String)
    (explain : optParam (String → String) unexplained) : Result × Files :=
  match Invocation.ofArgs args with
  | .help => (⟨codeOk, helpText.toList, ""⟩, files)
  | .version => (⟨codeOk, versionText.toList, ""⟩, files)
  | .misuse => (⟨codeInvalid, [], misuseText⟩, files)
  | .check c => runCheck world ofInterpreter chance environment explain files c

end CommandLine
end LiveDoc
