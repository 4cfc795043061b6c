/-
Recognising the interpreter's prompt.

The prompt counts only at the start of a line, that is at the start of the
output or directly after LF, so that output which merely contains the marker
ends no turn.
-/
import LiveDoc.Text.Utf8
import LiveDoc.Text.Display

namespace LiveDoc

structure Prompt where
  marker : String
  marker_ne : marker ≠ ""
deriving DecidableEq

namespace Prompt

/-- Why a text cannot serve as a prompt marker. -/
inductive Refusal where
  | empty
  | tooLong (marker : String)
deriving Repr, DecidableEq

def Refusal.message : Refusal → String
  | .empty => "prompt marker must not be empty"
  | .tooLong marker => "compile prompt pattern for " ++ quoted marker

def Refusal.cause : Refusal → Option String
  | .empty => none
  | .tooLong _ => some "Compiled regex exceeds size limit of 10485760 bytes."

/-- The most bytes a marker may have.  Its search pattern has seven states more than the marker
has bytes, at 32 bytes each, and 16 bytes besides, and may take ten mebibytes. -/
def maxMarkerBytes : Nat := (10485760 - 16) / 32 - 7

def ofMarker (marker : String) : Except Refusal Prompt :=
  if h : marker = "" then .error .empty
  else if marker.utf8ByteSize > maxMarkerBytes then .error (.tooLong marker)
  else .ok ⟨marker, h⟩

def bytes (p : Prompt) : Bytes := bytesOf p.marker

/-- The first offset, counted from `i`, at which a line starts with `marker`.
`lineStart` says whether the given output starts a line. -/
def findFrom (marker : Bytes) (lineStart : Bool) (i : Nat) : Bytes → Option Nat
  | [] => none
  | b :: rest =>
    if lineStart && marker.isPrefixOf (b :: rest) then some i
    else findFrom marker (b == 10) (i + 1) rest

def find (p : Prompt) (output : Bytes) : Option Nat := findFrom p.bytes true 0 output

end Prompt
end LiveDoc
