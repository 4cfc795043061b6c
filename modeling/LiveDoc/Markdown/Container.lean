/-
Containers that a line can continue.

A line belongs to the open containers whose marks it repeats, from the outermost
one inwards: a quote sign for a block quote, enough indentation for a list item
or a footnote.  A blank line belongs to items and footnotes without indentation.
-/
import LiveDoc.Markdown.Line

namespace LiveDoc
namespace Markdown

inductive Container where
  | quote
  /-- A list whose items have the given bullet or delimiter. -/
  | list (mark : Char)
  /-- A list item with the given indentation of its content. -/
  | item (indent : Nat)
  | footnote
deriving Repr, DecidableEq, Inhabited

/-- The cursor behind the mark that continues a container, `none` if there is none. -/
def Container.continue? : Container → Cursor → Option Cursor
  | .quote, c => c.skipQuoteMark?
  | .list _, c => some c
  | .item indent, c => indented indent c
  | .footnote, c => indented 4 c
where
  /-- The cursor behind the indentation, which a blank line need not have. -/
  indented (indent : Nat) (c : Cursor) : Option Cursor :=
    let (missing, c') := c.skipColumns indent
    if missing = 0 || c'.atLineEnd then some c' else none

/-- How many of the containers, outermost first, a line continues, and where the line
goes on behind their marks. -/
def continued : List Container → Cursor → Nat × Cursor
  | [], c => (0, c)
  | container :: inner, c =>
    match container.continue? c with
    | some c' => let (n, end') := continued inner c'; (n + 1, end')
    | none => (0, c)

/-- The number of characters that the marks of continued containers take. -/
def markLength (containers : List Container) (s : List Char) : Nat :=
  (continued containers (.lineStart (.start s))).2.place.pos

end Markdown
end LiveDoc
