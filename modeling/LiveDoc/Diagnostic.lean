/-
The diagnostic of a failure: what went wrong, and how to get back to it.
-/
import LiveDoc.Diff
import LiveDoc.Text.Lines
import LiveDoc.Capture

namespace LiveDoc
namespace Diagnostic

/-- What went wrong.  An error message of the interpreter is part of the transcript. -/
def reason (f : Failure) : String :=
  match f.verdict with
  | .exited => "Exited REPL unexpectedly.\n"
  | .timeout => "Timeout: either took too long or an error occurred.\n"
  | .mismatch actual => Diff.render (f.failed.expected.getD "") actual
  | .success => ""

def indent : List Char := [' ', ' ', ' ', ' ']

/-- The lines between the reason and the code, for the command `replay` that evaluates
everything before the failure. -/
def instructions (replay : String) : List (List Char) :=
  ["To reproduce this in a REPL, first evaluate all the forms up to".toList,
   "but not including this one by running the following command:".toList,
   [],
   indent ++ replay.toList,
   [],
   "Then evaluate the erroneous form:".toList,
   []]

def quotedCode (code : String) : List (List Char) :=
  (linesOf code.toList).map (indent ++ ·)

def render (f : Failure) (replay : String) : String :=
  String.ofList
    (joinWith ['\n']
      ((reason f).toList :: instructions replay ++ quotedCode f.failed.code))

end Diagnostic
end LiveDoc
