/-
Examples, and what becomes of them in a turn with the interpreter.

What an interpreter prints is bytes.  The text compared with the documented
output and shown in the transcript is their lenient decoding with every CR LF
written as LF, so a garbled capture is still shown and the interpreter's choice
of line end does not matter.
-/
import LiveDoc.Text.Utf8
import LiveDoc.Text.Lines

namespace LiveDoc

/-- A code sample to be evaluated, with the output documented for it if any. -/
structure Example where
  code : String
  expected : Option String
deriving Repr, DecidableEq, Inhabited

/-- The outcome of a turn.  Every verdict but success ends the run. -/
inductive Verdict where
  /-- The prompt came back, and the output was the documented one if it was compared. -/
  | success
  /-- The prompt came back after other output than the documented one. -/
  | mismatch (actual : String)
  /-- The interpreter closed its output. -/
  | exited
  | timeout
deriving Repr, DecidableEq, Inhabited

namespace Verdict

def label : Verdict → String
  | .success => "success"
  | .mismatch _ => "mismatch"
  | .exited => "exited"
  | .timeout => "timeout"

def isSuccess : Verdict → Bool
  | .success => true
  | _ => false

end Verdict

/-- What the interpreter made of a piece of code: how the turn ended, and what was printed
until then.  The output has not been compared with anything yet. -/
structure Evaluation where
  verdict : Verdict
  raw : Bytes
deriving Repr, DecidableEq, Inhabited

/-- The first example of a run that did not succeed, and how to get back to it. -/
structure Failure where
  /-- The position of the example, counted from one. -/
  number : Nat
  failed : Example
  verdict : Verdict
  /-- The code of the examples that succeeded before it, in order. -/
  evaluated : List String
deriving Repr, DecidableEq, Inhabited

structure RunResult where
  passed : Nat
  failure : Option Failure
deriving Repr, DecidableEq, Inhabited

namespace Capture

/-- The characters of a capture, with LF line ends. -/
def chars (raw : Bytes) : List Char := joinCrLf (Utf8.decodeLossy raw)

def text (raw : Bytes) : String := String.ofList (chars raw)

@[simp] theorem toList_text (raw : Bytes) : (text raw).toList = chars raw := by
  simp [text]

end Capture

end LiveDoc
