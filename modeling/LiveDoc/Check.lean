/-
Checking a document: its examples are verified in a fresh interpreter, and the
first one that fails is reported.
-/
import LiveDoc.Outline.Read
import LiveDoc.Report
import LiveDoc.Session.Live

namespace LiveDoc

structure CheckRequest where
  document : String
  config : Config
  /-- The directory of a library manager, which is loaded if no arguments are configured. -/
  quickLisp : Option String
  artifactDir : String
deriving Repr, Inhabited

inductive CheckOutcome where
  | passed (examples : Nat)
  | failed (failure : Failure) (report : Report)
deriving Repr, Inhabited

inductive CheckError (ε : Type) where
  | document (e : DocumentError)
  | start (e : StartError)
  | verify (e : VerifyError ε)
  | report (e : ReportError)

namespace CheckError

def message {ε : Type} (ofInterpreter : ε → String) : CheckError ε → String
  | .document e => e.message
  | .start e => e.message
  | .verify e => e.message ofInterpreter
  | .report e => e.message

def cause {ε : Type} : CheckError ε → Option String
  | .document e => e.cause
  | .start e => e.cause
  | .verify _ => none
  | .report e => e.cause

end CheckError

def Config.session (c : Config) (quickLisp : Option String) : SessionRequest :=
  ⟨c.interpreter.command, c.interpreter.startupArgs quickLisp, c.interpreter.prompt,
   c.evalTimeout, c.startupTimeout⟩

def CheckRequest.place (r : CheckRequest) : ArtifactPlace :=
  ⟨Path.stem r.document, r.config.interpreter.artifactSuffix, r.artifactDir⟩

structure Interpreters (σ ε : Type) where
  start : SessionRequest → Except StartError σ
  repl : Interpreter σ ε

def Interpreters.live (launch : String → List String → Except SpawnFault Process) :
    Interpreters Live SessionError :=
  ⟨Live.start launch, .live⟩

variable {σ ε τ : Type}

/-- Checks a document: the outcome, the transcript and the files afterwards. -/
def check (world : Interpreters σ ε) (sink : Sink τ) (chance : Chance) (files : Files)
    (r : CheckRequest) (transcript : τ) : Except (CheckError ε) CheckOutcome × τ × Files :=
  match Node.read files r.document with
  | .error e => (.error (.document e), transcript, files)
  | .ok root =>
    let examples := root.examples r.config.language
    match world.start (r.config.session r.quickLisp) with
    | .error e => (.error (.start e), transcript, files)
    | .ok s =>
      let v : Verifier σ τ := ⟨s, transcript, r.config.interpreter.prompt, []⟩
      match v.run world.repl sink examples with
      | (.error e, v) => (.error (.verify e), v.transcript, files)
      | (.ok ⟨passed, none⟩, v) => (.ok (.passed passed), v.transcript, files)
      | (.ok ⟨_, some failure⟩, v) =>
        match reportFailure files r.place chance r.config.interpreter failure with
        | (.error e, files) => (.error (.report e), v.transcript, files)
        | (.ok report, files) => (.ok (.failed failure report), v.transcript, files)

end LiveDoc
