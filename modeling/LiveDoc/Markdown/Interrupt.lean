/-
Lines that end the paragraph above them.

A paragraph goes on over lines that repeat only some of its containers' marks,
unless such a line could start a block of its own.
-/
import LiveDoc.Markdown.BlockStart
import LiveDoc.Markdown.Html
import LiveDoc.Markdown.Label
import LiveDoc.Markdown.Table

namespace LiveDoc
namespace Markdown

def htmlInterrupts : List Char → Bool
  | '<' :: rest => (Html.endMark? rest).isSome || Html.startsBlockElement rest
  | _ => false

/-- Does a line other than the header of a table end the paragraph or table above it?
`inside` says that the line continues all containers of a paragraph. -/
def endsText (inside : Bool) (s : List Char) : Bool :=
  (lineEnd? s).isSome || (thematicBreak? s).isSome || (headingLevel? s).isSome ||
    (fence? s).isSome || s.head? == some '>' || itemInterrupts inside s ||
    htmlInterrupts s || (footnoteStart? s).isSome

def endsParagraph (containers : List Container) (inside : Bool) (s : List Char) : Bool :=
  endsText inside s || tableInterrupts containers s

/-- Which underlines of headings end the text that a line goes on with. -/
inductive Underlines where
  | never
  | inside
  | always
deriving DecidableEq

/-- The number of characters of marks and indentation that a line starts with, if it goes
on with the text of the line before. -/
def goesOn? (containers : List Container) (underlines : Underlines) (s : List Char) :
    Option Nat :=
  let (n, c) := continued containers (.lineStart (.start s))
  let inside := n == containers.length
  let (missing, c) := c.skipColumns 4
  let line := c.place.rest
  let underlined := match underlines with
    | .never => false
    | .inside => inside && (underline? line).isSome
    | .always => (underline? line).isSome
  if missing ≠ 0 && (endsParagraph containers inside line || underlined) then none
  else some c.place.pos

end Markdown
end LiveDoc
