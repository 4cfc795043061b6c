/-
The outline of a document: its code blocks and the containers around them.

Everything that is not a code block is a container, whether it is a section of
text, a list or a single word in italics.  `examples` reads the examples off an
outline: a code block with the wanted tag and some text is an example, and the
untagged code block directly behind it among its siblings, blanks aside, is the
output documented for it.
-/
import LiveDoc.Capture

namespace LiveDoc

inductive Node where
  /-- A code block, with an empty tag when it has none. -/
  | code (tag text : String)
  /-- A blank between blocks, which separates nothing. -/
  | blank
  | container (children : List Node)
deriving Repr, Inhabited

/-- The documented output of a code block that these siblings follow. -/
def outputAmong : List Node → Option String
  | [] => none
  | .blank :: rest => outputAmong rest
  | .code tag text :: _ => if tag = "" then some text else none
  | .container _ :: _ => none

mutual

/-- The examples in a node, in the order of the document.  A code block has none
inside it. -/
def Node.examples (tag : String) : Node → List Example
  | .code _ _ => []
  | .blank => []
  | .container children => examplesAmong tag children

def examplesAmong (tag : String) : List Node → List Example
  | [] => []
  | .code tag' text :: rest =>
    if tag' = tag ∧ text ≠ "" then
      ⟨text, outputAmong rest⟩ :: examplesAmong tag rest
    else examplesAmong tag rest
  | node :: rest => node.examples tag ++ examplesAmong tag rest

end

theorem examplesAmong_container (tag : String) (children rest : List Node) :
    examplesAmong tag (.container children :: rest) =
      examplesAmong tag children ++ examplesAmong tag rest := rfl

theorem examplesAmong_code (tag tag' text : String) (rest : List Node) :
    examplesAmong tag (.code tag' text :: rest) =
      (if tag' = tag ∧ text ≠ "" then [⟨text, outputAmong rest⟩] else []) ++
        examplesAmong tag rest := by
  rw [examplesAmong]
  split <;> rfl

end LiveDoc
