/-
The shape of tables.

A table starts with a header line and a delimiter row that has as many columns.
Columns are divided by vertical bars that no backslash precedes.
-/
import LiveDoc.Markdown.Container

namespace LiveDoc
namespace Markdown

/-- What a delimiter row has shown so far: complete columns, and whether the current one
has begun, has a hyphen, and whether the row has any bar or hyphen. -/
structure DelimiterState where
  columns : Nat
  begun : Bool
  columnHyphen : Bool
  bar : Bool
  hyphen : Bool

/-- Reads the rest of a delimiter row: its length in characters with the line end, and its
number of columns. -/
def delimiterFrom (state : DelimiterState) (length : Nat) : List Char → Option (Nat × Nat)
  | [] => finish state length []
  | c :: rest =>
    if c = '\n' ∨ c = '\r' then finish state length (c :: rest)
    else if c = ' ' then delimiterFrom state (length + 1) rest
    else if c = ':' then delimiterFrom { state with begun := true } (length + 1) rest
    else if c = '-' then
      delimiterFrom { state with begun := true, columnHyphen := true, hyphen := true }
        (length + 1) rest
    else if c = '|' then
      if state.columnHyphen then
        delimiterFrom
          { state with columns := state.columns + 1, begun := false, columnHyphen := false, bar := true }
          (length + 1) rest
      else none
    else none
where
  /-- The row ends before the line end that `s` starts with. -/
  finish (state : DelimiterState) (length : Nat) (s : List Char) : Option (Nat × Nat) :=
    if state.bar && state.hyphen then
      some (length + (lineEnd? s).getD 0, state.columns + if state.begun then 1 else 0)
    else none

/-- The delimiter row that a text starts with: its length and its number of columns.  A
leading bar stands at the very start, and fewer than four spaces may precede the rest. -/
def delimiterRow? (s : List Char) : Option (Nat × Nat) :=
  let spaces := countWhile (· == ' ') s
  if 3 < spaces || (s.drop spaces).head? == some '\t' then none
  else
    match s with
    | '|' :: rest => delimiterFrom ⟨0, false, false, true, false⟩ 1 rest
    | _ => delimiterFrom ⟨0, false, false, false, false⟩ 0 s

/-- The bars of a line: how many there are, and where the last one stands.  `escaped` says
that a backslash precedes.  With `paired` two backslashes are one escaped backslash. -/
def barsFrom (paired escaped : Bool) (i count last : Nat) : List Char → Nat × Nat
  | [] => (count, last)
  | c :: rest =>
    if c = '\\' then barsFrom paired (!(paired && escaped)) (i + 1) count last rest
    else if c = '|' ∧ !escaped then barsFrom paired false (i + 1) (count + 1) i rest
    else barsFrom paired false (i + 1) count last rest

def lineText (s : List Char) : List Char := s.takeWhile fun c => c != '\n' && c != '\r'

/-- The number of columns of a header line, zero if it has no bars.  A bar at either end
of the line divides nothing. -/
def headerColumns (paired : Bool) (line : List Char) : Nat :=
  let (bars, last) := barsFrom paired false 0 0 0 line
  if bars = 0 then 0
  else
    let bars := if (line.dropWhile isInlineSpace).head? == some '|' then bars - 1 else bars
    if (line.drop (last + 1)).all isInlineSpace then bars else bars + 1

/-- The delimiter row on the line behind a header line with `columns` columns: the number
of characters from the start of that line to the end of the row. -/
def delimiterBelow? (containers : List Container) (columns : Nat) (nextLine : List Char) :
    Option Nat :=
  let (n, c) := continued containers (.lineStart (.start nextLine))
  if n = containers.length then
    match delimiterRow? c.place.rest with
    | some (length, columns') => if columns' = columns then some (c.place.pos + length) else none
    | none => none
  else none

/-- Does a table that starts here interrupt a paragraph?  Its header line has to start
with a bar. -/
def tableInterrupts (containers : List Container) (s : List Char) : Bool :=
  match s with
  | '|' :: _ =>
    let line := lineText s
    match lineEnd? (s.drop line.length) with
    | some (k + 1) =>
      (delimiterBelow? containers (headerColumns false line)
        (s.drop (line.length + k + 1))).isSome
    | _ => false
  | _ => false

end Markdown
end LiveDoc
