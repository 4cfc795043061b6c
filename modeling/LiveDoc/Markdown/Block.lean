/-
The blocks of a document and their events.

In a tight list, one without blank lines between its parts, the paragraphs of
the items do not show as such: their text stands in the item itself.
-/
import LiveDoc.Markdown.RunningText

namespace LiveDoc
namespace Markdown

inductive Block where
  | paragraph (text : RunningText)
  | heading (text : RunningText)
  /-- A code block: fenced, with the text behind its fence, or indented. -/
  | code (info : Option String) (lines : List String)
  | html (lines : List String)
  | rule
  | table (head : List RunningText) (rows : List (List RunningText))
  | task
  | quote (blocks : List Block)
  | list (tight : Bool) (items : List Block)
  | item (blocks : List Block)
  | footnote (blocks : List Block)
deriving Inhabited

def within (tag : Tag) (events : List Event) : List Event :=
  .opens tag :: events ++ [.closes tag]

def RunningText.events (defs : Definitions) (text : RunningText) : List Event :=
  inlineEvents (text.inline defs)

def cellEvents (defs : Definitions) (cells : List RunningText) : List Event :=
  cells.flatMap fun cell => within .tableCell (cell.events defs)

mutual

def Block.events (defs : Definitions) (tight : Bool) : Block → List Event
  | .paragraph text => if tight then text.events defs else within .paragraph (text.events defs)
  | .heading text => within .heading (text.events defs)
  | .code info lines => .opensCode info :: lines.map .text ++ [.closesCode]
  | .html lines => within .htmlBlock (lines.map fun _ => .content)
  | .rule => [.rule]
  | .table head rows =>
    within .table
      (within .tableHead (cellEvents defs head) ++
        rows.flatMap fun row => within .tableRow (cellEvents defs row))
  | .task => [.content]
  | .quote blocks => within .blockQuote (blockEvents defs false blocks)
  | .list tight items => within .list (blockEvents defs tight items)
  | .item blocks => within .item (blockEvents defs tight blocks)
  | .footnote blocks => within .footnote (blockEvents defs false blocks)

def blockEvents (defs : Definitions) (tight : Bool) : List Block → List Event
  | [] => []
  | b :: rest => b.events defs tight ++ blockEvents defs tight rest

end

end Markdown
end LiveDoc
