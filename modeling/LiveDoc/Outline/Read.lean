/-
Reading the outline of a document.

A builder keeps the children of each open container, innermost first, with the
document itself at the bottom.  A thematic break neither opens nor closes
anything but still separates blocks, so it becomes a container without content.
-/
import LiveDoc.Files
import LiveDoc.Markdown.Document
import LiveDoc.Outline

namespace LiveDoc

/-- The tag of a code block: the first word of the text behind its fence. -/
def codeTag (info : Option String) : String :=
  match info with
  | some s => String.ofList (firstWord s.toList)
  | none => ""

structure Builder where
  /-- The children of each open container, innermost first. -/
  levels : List (List Node)
  /-- Tag and text so far of the code block that is being read. -/
  code : Option (String × String)
deriving Repr, Inhabited

namespace Builder

open Markdown (Event)

def empty : Builder := ⟨[[]], none⟩

def addNode (node : Node) : List (List Node) → List (List Node)
  | [] => [[node]]
  | level :: outer => (level ++ [node]) :: outer

/-- The levels with the innermost container closed.  The document stays open. -/
def closeLevel : List (List Node) → List (List Node)
  | children :: outer@(_ :: _) => addNode (.container children) outer
  | levels => levels

def push (b : Builder) : Event → Builder
  | .opensCode info => { b with code := some (codeTag info, "") }
  | .closesCode =>
    match b.code with
    | some (tag, text) => ⟨addNode (.code tag text) b.levels, none⟩
    | none => b
  | .text s => { b with code := b.code.map fun (tag, text) => (tag, text ++ s) }
  | .opens _ => { b with levels := [] :: b.levels }
  | .closes _ => { b with levels := closeLevel b.levels }
  | .rule => { b with levels := addNode (.container []) b.levels }
  | .content => b

/-- The outline whose innermost open container has the given children so far, once
it and every container around it is closed. -/
def closeAll (children : List Node) : List (List Node) → Node
  | [] => .container children
  | level :: outer => closeAll (level ++ [.container children]) outer

def finish (b : Builder) : Node :=
  match b.levels with
  | [] => .container []
  | children :: outer => closeAll children outer

end Builder

def Node.ofEvents (events : List Markdown.Event) : Node :=
  (events.foldl Builder.push Builder.empty).finish

def Node.ofMarkdown (source : String) : Node := Node.ofEvents (Markdown.parse source)

structure DocumentError where
  path : String
  reason : FileError
deriving Repr, DecidableEq, Inhabited

namespace DocumentError

def message (e : DocumentError) : String := "read document " ++ e.path

def cause (e : DocumentError) : Option String := some e.reason.message

end DocumentError

def Node.read (files : Files) (path : String) : Except DocumentError Node :=
  match files.readText path with
  | .error e => .error ⟨path, e⟩
  | .ok text => .ok (Node.ofMarkdown text)

end LiveDoc
