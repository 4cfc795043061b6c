/-
Reading a Markdown document.

The dialect is CommonMark with tables, strikethrough, task lists and footnotes.
A document is read block by block; inline content is read last, when all
definitions are known.
-/
import LiveDoc.Markdown.Leaf
import LiveDoc.Markdown.Open

namespace LiveDoc

namespace Markdown

/-! ## Containers that open -/

/-- The marker of a list item behind `outer` columns: its bullet or delimiter, the
indentation of the item's content, and the cursor behind it. -/
def itemStart? (outer : Nat) (c : Cursor) : Option (Char × Nat × Cursor) := do
  let s := c.place.rest
  let m ← marker? s
  if (thematicBreak? s).isSome then none
  else
    let c := { c with place := c.place.skip m.length, offset := c.offset + m.length }
    let (missing, c') := c.skipColumns 1
    if missing ≠ 0 && !c'.atLineEnd then none
    else
      let indent := outer + m.length + 1
      if (blankLine? c'.place.rest).isSome then some (m.mark, indent, c')
      else
        let (further, c'') := c'.skipUpTo 4
        if further < 4 then some (m.mark, indent + further, c'') else some (m.mark, indent, c')

def taskBox? (c : Cursor) : Option Cursor := do
  let c := (c.skipUpTo 3).2
  match c.place.rest with
  | '[' :: mark :: ']' :: behind :: _ =>
    if (isInlineSpace mark || mark == 'x' || mark == 'X') && isInlineSpace behind then
      some { c with place := c.place.skip 3, offset := c.offset + 3 }
    else none
  | _ => none

inductive LineStart where
  /-- The line holds nothing else; the next one starts at the place. -/
  | usedUp (r : Reading) (next : Place)
  | goesOn (r : Reading) (c : Cursor)

/-- Opens the containers whose marks stand at a cursor.  `fuel` bounds their number. -/
def openContainers : Nat → Reading → Cursor → LineStart
  | 0, r, c => .goesOn r c
  | fuel + 1, r, c =>
    let (indent, c') := c.skipUpTo 4
    if 4 ≤ indent then .goesOn r c
    else
      match footnoteStart? c'.place.rest with
      | some (n, label) =>
        let p := c'.place.skip n
        openContainers fuel (r.enterFootnote label)
          (.lineStart (p.skip (countWhile isInlineSpace p.rest)))
      | none =>
        match itemStart? indent c' with
        | some (mark, indent, c) =>
          let r := r.enterItem mark indent
          match blankLine? c.place.rest with
          | some n => .usedUp { r with itemBegun := true } (c.place.skip n)
          | none =>
            match taskBox? c with
            | some c =>
              let r := r.add .task
              match blankLine? c.place.rest with
              | some n => .usedUp { r with itemBegun := true } (c.place.skip n)
              | none => openContainers fuel r c
            | none => openContainers fuel r c
        | none =>
          match c'.skipQuoteMark? with
          | some c => openContainers fuel (r.endList.enter .quote) c
          | none => .goesOn r c

/-! ## Blocks -/

/-- Reads definitions and the paragraph behind them.  Definitions are part of a paragraph as
far as its further lines are concerned.  `fuel` bounds the number of definitions. -/
def definitionsAndParagraph : Nat → Reading → Place → Reading × Place
  | 0, r, p => (r, p)
  | fuel + 1, r, p =>
    match definition? r.containers p.rest with
    | none =>
      let (block, next) := paragraph r.containers p
      (r.add block, next)
    | some (n, label) =>
      let r := r.define label
      let behind := p.skip n
      match blankLine? behind.rest with
      | none => (r, behind)
      | some k =>
        let next := behind.skip k
        match goesOn? r.containers .never next.rest with
        | none => (r, next)
        | some m =>
          let p' := next.skip m
          let p' := p'.skip (countWhile (fun c => c == ' ' || c == '\t') p'.rest)
          if (lineEnd? p'.rest).isSome then (r, next) else definitionsAndParagraph fuel r p'

/-- Reads the block at a cursor behind all marks of containers, where no blank line is. -/
def leafBlock (r : Reading) (c : Cursor) : Reading × Place :=
  let r := r.endList
  let containers := r.containers
  let (indent, c') := c.skipUpTo 4
  if indent = 4 then
    let (block, afterBlank, next) := indentedCode containers c'
    ({ r.add block with afterBlank }, next)
  else
    let p := c'.place
    match htmlStart? p.rest with
    | some mark =>
      let (lines, next) := htmlLines containers mark (p.rest.length + 1) c'
      (r.add (.html lines), next)
    | none =>
      match thematicBreak? p.rest with
      | some n => (r.add .rule, p.skip n)
      | none =>
        match headingLevel? p.rest with
        | some level =>
          let (block, next) := numberedHeading containers level p
          (r.add block, next)
        | none =>
          match fence? p.rest with
          | some fence =>
            let (block, next) := fencedCode containers fence indent p
            (r.add block, next)
          | none => definitionsAndParagraph (p.rest.length + 1) r p

/-- Reads the block that the line at a place starts or goes on with. -/
def nextBlock (r : Reading) (p : Place) : Reading × Place :=
  let (n, c) := continued r.containers (.lineStart p)
  let r := r.leaveMany (r.levels.length - n)
  match openContainers (p.rest.length + 1) r c with
  | .usedUp r next => (r, next)
  | .goesOn r c =>
    match blankLine? c.place.rest with
    | some k => (r.blankLine, c.place.skip k)
    | none => leafBlock r c

/-- Reads blocks to the end of the document.  `fuel` bounds their number. -/
def blocksFrom : Nat → Reading → Place → Reading
  | 0, r, _ => r
  | fuel + 1, r, p =>
    if p.rest.isEmpty then r
    else
      let (r, p) := nextBlock r p
      blocksFrom fuel r p

def parse (source : String) : List Event :=
  let r := blocksFrom (source.toList.length + 1) .start (.start source.toList)
  blockEvents r.definitions false r.finish

end Markdown

end LiveDoc
