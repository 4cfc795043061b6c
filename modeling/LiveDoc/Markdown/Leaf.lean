/-
Reading leaf blocks: those that hold text and no further blocks.

Each reader starts behind the marks and the indentation of the block's first
line and returns the block and the place where the next one starts.
-/
import LiveDoc.Markdown.Block

namespace LiveDoc
namespace Markdown

/-! ## Code and HTML -/

/-- A line without the CR in front of its last character, which is its LF if it has one. -/
def withoutCr (line : List Char) : List Char :=
  match line.reverse with
  | last :: '\r' :: rest => if last.toNat < 0x80 then (last :: rest).reverse else line
  | _ => line

/-- The text of the line behind a cursor, with the columns of a tab used in part. -/
def Cursor.lineText (c : Cursor) : String :=
  let line := c.place.rest.take (lineLength c.place.rest)
  String.ofList (List.replicate c.spaces ' ' ++ withoutCr line)

def Cursor.nextLine (c : Cursor) : Place := c.place.skip (lineLength c.place.rest)

/-- The lines of a fenced code block and the place behind it.  `fuel` bounds the number of
lines. -/
def fencedLines (containers : List Container) (fence : Fence) (indent : Nat) :
    Nat → Place → List String × Place
  | 0, p => ([], p)
  | fuel + 1, p =>
    let (n, c) := continued containers (.lineStart p)
    if n < containers.length then ([], p)
    else
      let c := (c.skipColumns indent).2
      let (missing, closer) := c.skipColumns (4 - indent)
      match if missing = 0 then none else closingFence? fence closer.place.rest with
      | some k =>
        let behind := closer.place.skip k
        ([], behind.skip ((blankLine? behind.rest).getD 0))
      | none =>
        let (lines, behind) := fencedLines containers fence indent fuel c.nextLine
        (c.lineText :: lines, behind)

/-- The text behind a fence: the rest of its line without white space at the ends. -/
def infoText (s : List Char) : List Char :=
  let s := s.dropWhile isInlineSpace
  let line := s.take (lineLength s)
  unescape (line.reverse.dropWhile isAsciiSpace).reverse

/-- Reads a fenced code block whose fence stands at a place behind `indent` columns. -/
def fencedCode (containers : List Container) (fence : Fence) (indent : Nat) (p : Place) :
    Block × Place :=
  let behind := p.skip fence.length
  let first := behind.skip (lineLength behind.rest)
  let (lines, p') := fencedLines containers fence indent (p.rest.length + 1) first
  (.code (some (String.ofList (infoText behind.rest))) lines, p')

/-- The lines of an indented code block from a cursor on, each with whether it is blank,
and the place behind them. -/
def indentedLines (containers : List Container) :
    Nat → Bool → Cursor → List (String × Bool) × Place
  | 0, _, c => ([], c.place)
  | fuel + 1, blank, c =>
    let next := c.nextLine
    let (n, c') := continued containers (.lineStart next)
    let (missing, c') := c'.skipColumns 4
    if n < containers.length || (missing ≠ 0 && !c'.atLineEnd) || c'.place.rest.isEmpty then
      ([(c.lineText, blank)], next)
    else
      let (lines, behind) :=
        indentedLines containers fuel (blankLine? c'.place.rest).isSome c'
      ((c.lineText, blank) :: lines, behind)

/-- Reads an indented code block behind its four columns: the block, whether blank lines
end it, and the place behind it.  Those blank lines do not belong to it. -/
def indentedCode (containers : List Container) (c : Cursor) : Block × Bool × Place :=
  let (lines, behind) := indentedLines containers (c.place.rest.length + 1) false c
  let kept := (lines.reverse.dropWhile (·.2)).reverse
  (.code none (kept.map (·.1)), kept.length < lines.length, behind)

/-- The lines of a block of HTML from a cursor on and the place behind them.  It ends with
the line that has `mark` in it, or before a blank line if there is no mark. -/
def htmlLines (containers : List Container) (mark : Option (List Char)) :
    Nat → Cursor → List String × Place
  | 0, c => ([], c.place)
  | fuel + 1, c =>
    let line := c.place.rest.take (lineLength c.place.rest)
    let next := c.nextLine
    let (n, c') := continued containers (.lineStart next)
    let ends := match mark with
      | some mark => Html.contains mark line
      | none => (blankLine? c'.place.rest).isSome
    if n < containers.length || ends then ([c.lineText], next)
    else if c'.place.rest.isEmpty then ([c.lineText], next)
    else
      let (lines, behind) := htmlLines containers mark fuel c'
      (c.lineText :: lines, behind)

/-- The block of HTML at a cursor, if one starts there: how it ends. -/
def htmlStart? : List Char → Option (Option (List Char))
  | '<' :: rest =>
    match Html.endMark? rest with
    | some mark => some (some mark)
    | none =>
      if Html.startsBlockElement rest || Html.isTagLine rest then some none else none
  | _ => none

/-! ## Headings -/

def headingText (s : List Char) : List Char :=
  let line := (lineText s).reverse.dropWhile (· == ' ')
  let closed := line.dropWhile (· == '#')
  match closed with
  | [] => []
  | c :: _ => if c = ' ' then (closed.dropWhile (· == ' ')).reverse else line.reverse

def numberedHeading (containers : List Container) (level : Nat) (p : Place) : Block × Place :=
  let behind := p.skip level
  let text := behind.skip (countWhile isInlineSpace behind.rest)
  let n := (lineText text.rest).length
  let next := text.skip (n + (lineEnd? (text.rest.drop n)).getD 0)
  (.heading ⟨containers, lineTokens (.start (headingText text.rest))⟩, next)

/-! ## Tables -/

/-- The rest of a cell, which ends at a bar without a backslash before it. -/
def cellText (escaped : Bool) : List Char → List Char
  | [] => []
  | c :: rest =>
    if c = '\n' ∨ c = '\r' ∨ (c = '|' ∧ !escaped) then []
    else c :: cellText (c == '\\') rest

/-- The cells of the row at a place, and the place behind it.  `fuel` bounds their number. -/
def rowCells : Nat → Place → List (List Char) × Place
  | 0, p => ([], p)
  | fuel + 1, p =>
    let p := if p.rest.head? == some '|' then p.skip 1 else p
    let p := p.skip (countWhile isInlineSpace p.rest)
    match lineEnd? p.rest with
    | some n => ([], p.skip n)
    | none =>
      let cell := cellText false p.rest
      let (cells, behind) := rowCells fuel (p.skip cell.length)
      (cell :: cells, behind)

/-- Reads a row of `columns` cells.  Missing cells are empty and further ones are left out. -/
def tableRow (containers : List Container) (columns : Nat) (p : Place) :
    List RunningText × Place :=
  let (cells, behind) := rowCells (p.rest.length + 1) p
  let cells := (cells ++ List.replicate (columns - cells.length) []).take columns
  (cells.map fun cell => ⟨containers, lineTokens (.start cell)⟩, behind)

def tableRows (containers : List Container) (columns : Nat) :
    Nat → Place → List (List RunningText) × Place
  | 0, p => ([], p)
  | fuel + 1, p =>
    let (n, c) := continued containers (.lineStart p)
    let c := c.skipBlanks
    if n < containers.length || endsText false c.place.rest then ([], p)
    else
      let (row, next) := tableRow containers columns c.place
      let (rows, behind) := tableRows containers columns fuel next
      (row :: rows, behind)

def endsInBackslash (line : List Char) : Bool :=
  countWhile (· == '\\') line.reverse % 2 == 1

def table? (containers : List Container) (p : Place) : Option (Block × Place) :=
  let line := lineText p.rest
  let columns := headerColumns true line
  let next := p.skip (line.length + (lineEnd? (p.rest.drop line.length)).getD 0)
  if columns = 0 || endsInBackslash line then none
  else
    (delimiterBelow? containers columns next.rest).map fun n =>
      let (head, _) := tableRow containers columns p
      let first := next.skip n
      let (rows, behind) := tableRows containers columns (first.rest.length + 1) first
      (.table head rows, behind)

/-! ## Paragraphs -/

/-- The starts of the lines of a paragraph from one of them on, whether an underline makes
it a heading, and the place behind it.  `fuel` bounds the number of lines. -/
def paragraphLines (containers : List Container) : Nat → Place → List Place × Bool × Place
  | 0, p => ([], false, p)
  | fuel + 1, p =>
    let n := (lineText p.rest).length
    let next := p.skip (n + (lineEnd? (p.rest.drop n)).getD 0)
    let (k, c) := continued containers (.lineStart next)
    let inside := k == containers.length
    let (missing, c) := c.skipColumns 4
    match if missing ≠ 0 && inside then underline? c.place.rest else none with
    | some m => ([p], true, c.place.skip m)
    | none =>
      let c' := c.skipBlanks
      if (missing ≠ 0 && endsParagraph containers inside c.place.rest) || c'.atLineEnd then
        ([p], false, next)
      else
        let (lines, underlined, behind) := paragraphLines containers fuel c'.place
        (p :: lines, underlined, behind)

/-- Reads a paragraph, a heading with an underline, or a table. -/
def paragraph (containers : List Container) (p : Place) : Block × Place :=
  match table? containers p with
  | some found => found
  | none =>
    let (lines, underlined, behind) := paragraphLines containers (p.rest.length + 1) p
    let text := p.rest.take (behind.pos - p.pos)
    let starts := lines.map fun line => (Place.start text).skip (line.pos - p.pos)
    let running : RunningText := ⟨containers, tokensOfLines starts⟩
    (if underlined then .heading running else .paragraph running, behind)

end Markdown
end LiveDoc
