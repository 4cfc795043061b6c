/-
Places in a document and the ends of its lines.

A line ends at LF, at CR LF, at a lone CR, or at the end of the document.  Code
and HTML blocks are cut into lines at LF only.
-/
import LiveDoc.Text.CharClass

namespace LiveDoc
namespace Markdown

/-- A place in a document: how many characters precede it, which is the last of
them, and what follows. -/
structure Place where
  pos : Nat
  before : Option Char
  rest : List Char
deriving Repr, Inhabited, DecidableEq

namespace Place

def start (text : List Char) : Place := ⟨0, none, text⟩

/-- The place `n` characters further on, or the end of the document. -/
def skip : Nat → Place → Place
  | 0, p => p
  | n + 1, p =>
    match p.rest with
    | [] => p
    | c :: rest => skip n ⟨p.pos + 1, some c, rest⟩

@[simp] theorem skip_zero (p : Place) : p.skip 0 = p := rfl

@[simp] theorem skip_succ (n pos : Nat) (before : Option Char) (c : Char) (rest : List Char) :
    skip (n + 1) ⟨pos, before, c :: rest⟩ = skip n ⟨pos + 1, some c, rest⟩ := rfl

/-- Skipping characters drops them from what follows. -/
theorem rest_skip (n : Nat) (p : Place) : (p.skip n).rest = p.rest.drop n := by
  induction n generalizing p with
  | zero => simp
  | succ n ih =>
    rcases p with ⟨pos, before, _ | ⟨c, rest⟩⟩
    · simp [skip]
    · simp [ih]

end Place

def countWhile (p : Char → Bool) (s : List Char) : Nat := (s.takeWhile p).length

def lineEnd? : List Char → Option Nat
  | [] => some 0
  | '\n' :: _ => some 1
  | '\r' :: '\n' :: _ => some 2
  | '\r' :: _ => some 1
  | _ => none

/-- The length of the rest of a line with nothing but inline space on it. -/
def blankLine? (s : List Char) : Option Nat :=
  let n := countWhile isInlineSpace s
  (lineEnd? (s.drop n)).map (n + ·)

def lineLength : List Char → Nat
  | [] => 0
  | '\n' :: _ => 1
  | _ :: rest => lineLength rest + 1

/-- A place at the start of a line, behind some of the marks of the containers it is
in.  Tab stops are four columns apart; `offset` counts the columns since the last
one and `spaces` those of a tab that has been used in part. -/
structure Cursor where
  place : Place
  offset : Nat
  spaces : Nat
deriving Repr, Inhabited, DecidableEq

namespace Cursor

def lineStart (p : Place) : Cursor := ⟨p, 0, 0⟩

/-- Skips `wanted` columns of spaces and tabs, as far as there are any: how many
columns are missing, and where that leads. -/
def skipFrom (wanted offset pos : Nat) (before : Option Char) : List Char → Nat × Cursor
  | [] => (wanted, ⟨⟨pos, before, []⟩, offset, 0⟩)
  | c :: rest =>
    if wanted = 0 then (0, ⟨⟨pos, before, c :: rest⟩, offset, 0⟩)
    else if c = ' ' then skipFrom (wanted - 1) (offset + 1) (pos + 1) (some c) rest
    else if c = '\t' then
      let width := 4 - offset % 4
      if wanted < width then (0, ⟨⟨pos + 1, some c, rest⟩, 0, width - wanted⟩)
      else skipFrom (wanted - width) 0 (pos + 1) (some c) rest
    else (wanted, ⟨⟨pos, before, c :: rest⟩, offset, 0⟩)

/-- Skips `wanted` columns of white space: how many are missing, and where that leads. -/
def skipColumns (wanted : Nat) (c : Cursor) : Nat × Cursor :=
  if wanted ≤ c.spaces then (0, { c with spaces := c.spaces - wanted })
  else skipFrom (wanted - c.spaces) c.offset c.place.pos c.place.before c.place.rest

/-- Skips at most `most` columns of white space: how many were skipped, and where that
leads. -/
def skipUpTo (most : Nat) (c : Cursor) : Nat × Cursor :=
  let (missing, c') := c.skipColumns most
  (most - missing, c')

def skipBlanks (c : Cursor) : Cursor :=
  { c with
    place := c.place.skip (countWhile (fun d => d == ' ' || d == '\t') c.place.rest)
    spaces := 0 }

def atLineEnd (c : Cursor) : Bool := (lineEnd? c.place.rest).isSome

def skipChar? (d : Char) (c : Cursor) : Option Cursor :=
  match c.place.rest with
  | e :: _ => if e = d then some { c with place := c.place.skip 1, offset := c.offset + 1 } else none
  | [] => none

/-- Skips the mark of a block quote: up to three columns, the sign, and one column. -/
def skipQuoteMark? (c : Cursor) : Option Cursor :=
  ((c.skipUpTo 3).2.skipChar? '>').map fun c' => (c'.skipUpTo 1).2

end Cursor
end Markdown
end LiveDoc
