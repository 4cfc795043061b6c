/-
The containers that are open while a document is read.

Every line first continues some of the open containers; the others close, and
new ones may open before the line's own text.  Blank lines matter only to lists:
one between two items, or between two blocks of an item, makes the list loose.
-/
import LiveDoc.Markdown.Block

namespace LiveDoc
namespace Markdown

/-- An open container and the blocks in it so far, in reverse.  A list is tight until a
blank line is found in it. -/
structure Level where
  container : Container
  tight : Bool
  blocks : List Block
deriving Inhabited

def Level.block (l : Level) : Block :=
  match l.container with
  | .quote => .quote l.blocks.reverse
  | .list _ => .list l.tight l.blocks.reverse
  | .item _ => .item l.blocks.reverse
  | .footnote => .footnote l.blocks.reverse

def Level.isList (l : Level) : Bool :=
  match l.container with
  | .list _ => true
  | _ => false

structure Reading where
  /-- The open containers, innermost first. -/
  levels : List Level
  blocks : List Block
  itemBegun : Bool
  /-- Whether the last line was blank, as far as lists are concerned. -/
  afterBlank : Bool
  definitions : Definitions
deriving Inhabited

namespace Reading

def start : Reading := ⟨[], [], false, false, ⟨[], []⟩⟩

def containers (r : Reading) : List Container := (r.levels.map (·.container)).reverse

def add (r : Reading) (b : Block) : Reading :=
  match r.levels with
  | [] => { r with blocks := b :: r.blocks }
  | l :: outer => { r with levels := { l with blocks := b :: l.blocks } :: outer }

def enter (r : Reading) (c : Container) : Reading :=
  { r with levels := ⟨c, true, []⟩ :: r.levels }

def leave (r : Reading) : Reading :=
  match r.levels with
  | [] => r
  | l :: outer =>
    ({ r with levels := outer, itemBegun := r.itemBegun && !(l.isList && l.tight) }).add l.block

def leaveMany : Nat → Reading → Reading
  | 0, r => r
  | n + 1, r => leaveMany n r.leave

/-- Closes an item that began without text and goes on with a blank line. -/
def endEmptyItem (r : Reading) : Reading :=
  let r' :=
    match r.levels with
    | ⟨.item _, _, _⟩ :: _ => if r.itemBegun && r.afterBlank then r.leave else r
    | _ => r
  { r' with itemBegun := false }

def leaveList (r : Reading) : Reading :=
  match r.levels with
  | l :: _ => if l.isList then r.leave else r
  | [] => r

/-- Makes the list loose that holds the innermost item, if a blank line came before. -/
def loosen (r : Reading) : Reading :=
  if r.afterBlank then
    let levels := match r.levels with
      | l :: outer :: rest =>
        if outer.isList then l :: { outer with tight := false } :: rest else r.levels
      | levels => levels
    { r with levels, afterBlank := false }
  else r

def endList (r : Reading) : Reading := r.endEmptyItem.leaveList.loosen

/-- Opens an item in a list with the given bullet or delimiter: in the innermost list if it
has the same one, else in a new list. -/
def enterItem (r : Reading) (mark : Char) (indent : Nat) : Reading :=
  let r := r.endEmptyItem
  let inList :=
    match r.levels with
    | ⟨.list mark', tight, blocks⟩ :: outer =>
      if mark' = mark then
        some { r with
          levels := ⟨.list mark', tight && !r.afterBlank, blocks⟩ :: outer
          afterBlank := false }
      else none
    | _ => none
  let r := inList.getD { r.endList.enter (.list mark) with afterBlank := false }
  r.enter (.item indent)

/-- Opens a footnote, in place of one that is still open. -/
def enterFootnote (r : Reading) (label : Label) : Reading :=
  let r := r.endList
  let r := match r.levels with
    | ⟨.footnote, _, _⟩ :: _ => r.leave
    | _ => r
  { r.enter .footnote with
    definitions := { r.definitions with footnotes := label :: r.definitions.footnotes } }

/-- Takes note of a blank line.  An item that has begun without text takes in no more
lines after one. -/
def blankLine (r : Reading) : Reading :=
  match r.levels with
  | ⟨.quote, _, _⟩ :: _ => r
  | ⟨.item indent, tight, blocks⟩ :: outer =>
    let indent := if r.itemBegun then 0 else indent
    { r with levels := ⟨.item indent, tight, blocks⟩ :: outer, afterBlank := true }
  | _ => { r with afterBlank := true }

def define (r : Reading) (label : Label) : Reading :=
  { r with definitions := { r.definitions with links := label :: r.definitions.links } }

def finish (r : Reading) : List Block := (leaveMany r.levels.length r).blocks.reverse

end Reading
end Markdown
end LiveDoc
