/-
Verifying examples against an interpreter.

Examples are evaluated one after the other, and the first that does not succeed
ends the run.  The code of those that do is kept, so that a failure can be
reproduced from a fresh interpreter.

Each turn is written to the transcript as in an interactive session: the prompt,
the code and the output.  Further lines of code are indented by the width of the
prompt.  A sink takes the text; it may fail at any write, and may then have taken
a part of it.
-/
import LiveDoc.Capture

namespace LiveDoc

def shownCode (prompt code : String) : List Char :=
  joinWith ('\n' :: List.replicate prompt.length ' ') (linesOf code.toList)

def turnPieces (prompt code actual : String) : List (List Char) :=
  [prompt.toList, shownCode prompt code, ['\n'], actual.toList, ['\n']]

def turnText (prompt code actual : String) : List Char :=
  (turnPieces prompt code actual).flatten

/-- A place that text is written to.  Both operations say whether they succeeded. -/
structure Sink (τ : Type) where
  write : τ → List Char → τ × Bool
  flush : τ → τ × Bool

namespace Sink

def writeAll {τ : Type} (sink : Sink τ) : List (List Char) → τ → τ × Bool
  | [], s => (s, true)
  | piece :: rest, s =>
    match sink.write s piece with
    | (s, true) => sink.writeAll rest s
    | (s, false) => (s, false)

def writeTurn {τ : Type} (sink : Sink τ) (prompt code actual : String) (s : τ) : τ × Bool :=
  match sink.writeAll (turnPieces prompt code actual) s with
  | (s, true) => sink.flush s
  | (s, false) => (s, false)

/-- A sink that keeps all text.  Its state is what has been written. -/
def unlimited : Sink (List Char) := ⟨fun s text => (s ++ text, true), fun s => (s, true)⟩

end Sink

/-- An interpreter with the state `σ`, which may fail with an `ε`. -/
structure Interpreter (σ ε : Type) where
  evaluate : σ → String → Except ε Evaluation × σ

structure Verifier (σ τ : Type) where
  interpreter : σ
  transcript : τ
  prompt : String
  /-- The code of every example that has succeeded, in order. -/
  evaluated : List String
deriving Inhabited

inductive VerifyError (ε : Type) where
  | interpreter (e : ε)
  | transcript
deriving Repr, DecidableEq

def VerifyError.message {ε : Type} (ofInterpreter : ε → String) : VerifyError ε → String
  | .interpreter e => ofInterpreter e
  | .transcript => "write transcript"

/-- The verdict on an example when the interpreter has printed `actual` and come back to
its prompt.  No documented output, or an empty one, leaves nothing to compare. -/
def compareOutput (expected : Option String) (actual : String) : Verdict :=
  match expected with
  | some text => if text ≠ "" ∧ text ≠ actual then .mismatch actual else .success
  | none => .success

namespace Verifier

variable {σ τ ε : Type}

def verify (repl : Interpreter σ ε) (sink : Sink τ) (v : Verifier σ τ) (e : Example) :
    Except (VerifyError ε) Verdict × Verifier σ τ :=
  match repl.evaluate v.interpreter e.code with
  | (.error err, s) => (.error (.interpreter err), { v with interpreter := s })
  | (.ok evaluation, s) =>
    let actual := Capture.text evaluation.raw
    match sink.writeTurn v.prompt e.code actual v.transcript with
    | (t, false) => (.error .transcript, { v with interpreter := s, transcript := t })
    | (t, true) =>
      let verdict := match evaluation.verdict with
        | .success => compareOutput e.expected actual
        | other => other
      let evaluated := if verdict.isSuccess then v.evaluated ++ [e.code] else v.evaluated
      (.ok verdict, ⟨s, t, v.prompt, evaluated⟩)

/-- Verifies examples of which `passed` have succeeded before, up to the first failure. -/
def runFrom (repl : Interpreter σ ε) (sink : Sink τ) (passed : Nat) (v : Verifier σ τ) :
    List Example → Except (VerifyError ε) RunResult × Verifier σ τ
  | [] => (.ok ⟨passed, none⟩, v)
  | e :: rest =>
    match v.verify repl sink e with
    | (.error err, v) => (.error err, v)
    | (.ok .success, v) => runFrom repl sink (passed + 1) v rest
    | (.ok verdict, v) => (.ok ⟨passed, some ⟨passed + 1, e, verdict, v.evaluated⟩⟩, v)

def run (repl : Interpreter σ ε) (sink : Sink τ) (v : Verifier σ τ) (examples : List Example) :
    Except (VerifyError ε) RunResult × Verifier σ τ :=
  runFrom repl sink 0 v examples

end Verifier

end LiveDoc
