/-
The outline of a Markdown document, block by block.

A block with a mark of its own comes to a single node.  A paragraph of a tight list item
has no such mark: it leaves only the nodes of its inline containers, and none at all if it
is plain text.
-/
import LiveDoc.Markdown.Document
import LiveDoc.Proofs.Outline.Assembly

namespace LiveDoc
namespace Markdown

open Builder (Adds)

/-! ## Inline content -/

mutual

/-- The nodes that inline content comes to: one for each link, image and emphasis. -/
def Inline.nodes : Inline → List Node
  | .text _ => []
  | .content => []
  | .container _ children => [.container (inlineNodes children)]

def inlineNodes : List Inline → List Node
  | [] => []
  | i :: rest => i.nodes ++ inlineNodes rest

end

mutual

theorem Inline.adds : (i : Inline) → Adds i.events i.nodes
  | .text s => Adds.text (String.ofList s)
  | .content => Adds.content
  | .container tag children => (inlineEvents_adds children).within tag

theorem inlineEvents_adds : (content : List Inline) → Adds (inlineEvents content) (inlineNodes content)
  | [] => Adds.nil
  | i :: rest => i.adds.append (inlineEvents_adds rest)

end

def RunningText.nodes (defs : Definitions) (text : RunningText) : List Node :=
  inlineNodes (text.inline defs)

theorem RunningText.adds (defs : Definitions) (text : RunningText) :
    Adds (text.events defs) (text.nodes defs) :=
  inlineEvents_adds (text.inline defs)

/-! ## Blocks -/

def cellNodes (defs : Definitions) (cells : List RunningText) : List Node :=
  cells.map fun cell => .container (cell.nodes defs)

mutual

def Block.nodes (defs : Definitions) (tight : Bool) : Block → List Node
  | .paragraph text => if tight then text.nodes defs else [.container (text.nodes defs)]
  | .heading text => [.container (text.nodes defs)]
  | .code info lines => [.code (codeTag info) (String.join lines)]
  | .html _ => [.container []]
  | .rule => [.container []]
  | .table head rows =>
    [.container (.container (cellNodes defs head) ::
      rows.map fun row => .container (cellNodes defs row))]
  | .task => []
  | .quote blocks => [.container (blockNodes defs false blocks)]
  | .list tight items => [.container (blockNodes defs tight items)]
  | .item blocks => [.container (blockNodes defs tight blocks)]
  | .footnote blocks => [.container (blockNodes defs false blocks)]

def blockNodes (defs : Definitions) (tight : Bool) : List Block → List Node
  | [] => []
  | b :: rest => b.nodes defs tight ++ blockNodes defs tight rest

end

theorem cellEvents_adds (defs : Definitions) (cells : List RunningText) :
    Adds (cellEvents defs cells) (cellNodes defs cells) :=
  Adds.flatMap (fun cell => (cell.adds defs).within .tableCell) cells

mutual

theorem Block.adds (defs : Definitions) (tight : Bool) :
    (b : Block) → Adds (b.events defs tight) (b.nodes defs tight)
  | .paragraph text => by
    rw [Block.events, Block.nodes]
    split
    · exact text.adds defs
    · exact (text.adds defs).within .paragraph
  | .heading text => (text.adds defs).within .heading
  | .code info lines => Adds.code info lines
  | .html lines => (Adds.contents lines).within .htmlBlock
  | .rule => Adds.rule
  | .table head rows =>
    have hhead := (cellEvents_adds defs head).within .tableHead
    have hrows := Adds.flatMap (fun row => (cellEvents_adds defs row).within .tableRow) rows
    (hhead.append hrows).within .table
  | .task => Adds.content
  | .quote blocks => (blockEvents_adds defs false blocks).within .blockQuote
  | .list tight items => (blockEvents_adds defs tight items).within .list
  | .item blocks => (blockEvents_adds defs tight blocks).within .item
  | .footnote blocks => (blockEvents_adds defs false blocks).within .footnote

theorem blockEvents_adds (defs : Definitions) (tight : Bool) :
    (blocks : List Block) → Adds (blockEvents defs tight blocks) (blockNodes defs tight blocks)
  | [] => Adds.nil
  | b :: rest => (b.adds defs tight).append (blockEvents_adds defs tight rest)

end

/-! ## Documents -/

def reading (source : String) : Reading :=
  blocksFrom (source.toList.length + 1) .start (.start source.toList)

/-- The outline of a document is that of its blocks. -/
theorem ofMarkdown_eq (source : String) :
    Node.ofMarkdown source =
      .container (blockNodes (reading source).definitions false (reading source).finish) :=
  (blockEvents_adds (reading source).definitions false (reading source).finish).ofEvents

end Markdown
end LiveDoc
