/-
Markdown events, and the inline content that they come from.

A parsed document is a sequence of events: containers open and close, code
blocks open and close around their text, and a few things stand alone.  Only a
code block's text is told apart from other content here, because only code is
evaluated.
-/
namespace LiveDoc
namespace Markdown

/-- The containers of a document, block and inline alike. -/
inductive Tag where
  | paragraph
  | heading
  | blockQuote
  | htmlBlock
  | list
  | item
  | footnote
  | table
  | tableHead
  | tableRow
  | tableCell
  | emphasis
  | strong
  | strikethrough
  | link
  | image
deriving Repr, DecidableEq

/-- One step of reading a document from top to bottom. -/
inductive Event where
  | opens (tag : Tag)
  | closes (tag : Tag)
  /-- A code block opens: fenced, with the text behind its fence, or indented. -/
  | opensCode (info : Option String)
  | closesCode
  | text (s : String)
  | rule
  /-- Content that is neither text nor a container: a code span, raw HTML, a line
  break, a footnote reference or a task marker. -/
  | content
deriving Repr, DecidableEq

inductive Inline where
  | text (s : List Char)
  /-- A code span, raw HTML, a line break or a footnote reference. -/
  | content
  | container (tag : Tag) (children : List Inline)
deriving Repr, Inhabited

mutual

def Inline.events : Inline → List Event
  | .text s => [.text (String.ofList s)]
  | .content => [.content]
  | .container tag children => .opens tag :: inlineEvents children ++ [.closes tag]

def inlineEvents : List Inline → List Event
  | [] => []
  | i :: rest => i.events ++ inlineEvents rest

end

end Markdown
end LiveDoc
