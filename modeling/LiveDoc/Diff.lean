/-
The line diff in a diagnostic.

Both texts are cut into lines that keep their line ends, LF, CR LF or a lone CR,
so that texts which differ only there show a difference.
-/
import LiveDoc.Diff.Script
import LiveDoc.Diff.Compact

namespace LiveDoc
namespace Diff

/-- The lines of a text, each with its line end.  `line` is what has been read of the
current one, in reverse. -/
def linesFrom (line : List Char) : List Char → List (List Char)
  | [] => if line.isEmpty then [] else [line.reverse]
  | '\r' :: '\n' :: rest => ('\n' :: '\r' :: line).reverse :: linesFrom [] rest
  | c :: rest =>
    if c = '\n' ∨ c = '\r' then (c :: line).reverse :: linesFrom [] rest
    else linesFrom (c :: line) rest

def lines (s : List Char) : List (List Char) := linesFrom [] s

def changes (expected actual : List Char) : List (Change × List Char) :=
  marks (compact (script (lines expected) (lines actual)))

def Change.sign : Change → Char
  | .keep => ' '
  | .delete => '-'
  | .insert => '+'

def missingLineEnd (line : List Char) : List Char :=
  match line.getLast? with
  | some '\n' => []
  | some '\r' => []
  | _ => ['\n']

def renderChange (change : Change × List Char) : List Char :=
  [' ', ' ', ' ', ' ', change.1.sign, ' '] ++ change.2 ++ missingLineEnd change.2

def header : String := "Differences (-expected +actual):\n\n"

def render (expected actual : String) : String :=
  header ++ String.ofList ((changes expected.toList actual.toList).flatMap renderChange)

end Diff
end LiveDoc
