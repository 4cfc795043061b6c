/-
How blocks start.

Each function looks at the rest of a line, behind the marks of containers and
the indentation, and says whether a block of one kind starts there.
-/
import LiveDoc.Markdown.Line

namespace LiveDoc
namespace Markdown

/-! ## Thematic breaks and headings -/

/-- Reads the rest of a thematic break of the sign `mark`, of which `count` have been
seen in `length` characters. -/
def thematicBreakFrom (mark : Char) (count length : Nat) : List Char → Option Nat
  | [] => if 3 ≤ count then some length else none
  | c :: rest =>
    if c = '\n' ∨ c = '\r' then
      if 3 ≤ count then some (length + (lineEnd? (c :: rest)).getD 0) else none
    else if c = mark then thematicBreakFrom mark (count + 1) (length + 1) rest
    else if c = ' ' ∨ c = '\t' then thematicBreakFrom mark count (length + 1) rest
    else none

/-- The length of a line of three or more signs `*`, `-` or `_`, line end included. -/
def thematicBreak? : List Char → Option Nat
  | [] => none
  | c :: rest =>
    if c = '*' ∨ c = '-' ∨ c = '_' then thematicBreakFrom c 0 0 (c :: rest) else none

def headingLevel? (s : List Char) : Option Nat :=
  let level := countWhile (· == '#') s
  if 1 ≤ level ∧ level ≤ 6 ∧ ((s.drop level).head?.all isAsciiSpace) then some level else none

/-- The length of a line that makes the paragraph above it a heading. -/
def underline? : List Char → Option Nat
  | [] => none
  | c :: rest =>
    if c = '=' ∨ c = '-' then
      let n := 1 + countWhile (· == c) rest
      (blankLine? (rest.drop (n - 1))).map (n + ·)
    else none

/-! ## Code fences -/

/-- A code fence: its sign and how often it stands there. -/
structure Fence where
  sign : Char
  length : Nat
deriving Repr, DecidableEq, Inhabited

/-- The fence that opens a code block.  Behind a fence of backticks no further
backtick may stand on the line. -/
def fence? : List Char → Option Fence
  | [] => none
  | c :: rest =>
    if c = '\x60' ∨ c = '~' then
      let n := 1 + countWhile (· == c) rest
      let behind := rest.drop (n - 1)
      if n < 3 then none
      else if c = '\x60' ∧ '\x60' ∈ behind.take (lineLength behind) then none
      else some ⟨c, n⟩
    else none

/-- The length of the line end at which a fence closes a code block: at least as many
of its signs, then spaces only.  The end of the document closes every block. -/
def closingFence? (fence : Fence) (s : List Char) : Option Nat :=
  if s.isEmpty then some 0
  else
    let n := countWhile (· == fence.sign) s
    if n < fence.length then none
    else
      let spaces := countWhile (· == ' ') (s.drop n)
      (lineEnd? (s.drop (n + spaces))).map fun _ => n + spaces

/-! ## List items -/

/-- The marker of a list item: its bullet or delimiter, the number in front of the
delimiter, and how many characters it takes. -/
structure Marker where
  mark : Char
  number : Nat
  length : Nat
deriving Repr, DecidableEq, Inhabited

def numberOf (digits : List Char) : Nat :=
  digits.foldl (fun n c => n * 10 + (c.toNat - '0'.toNat)) 0

/-- The marker that a text starts with: a bullet, or up to nine digits and a full stop
or parenthesis. -/
def marker? : List Char → Option Marker
  | [] => none
  | c :: rest =>
    if c = '-' ∨ c = '+' ∨ c = '*' then some ⟨c, 0, 1⟩
    else
      let digits := (c :: rest).takeWhile Char.isDigit
      if digits.isEmpty ∨ 9 < digits.length then none
      else
        match (c :: rest).drop digits.length with
        | d :: _ =>
          if d = '.' ∨ d = ')' then some ⟨d, numberOf digits, digits.length + 1⟩ else none
        | [] => none

def Marker.isSeparated (m : Marker) (s : List Char) : Bool :=
  match s.drop m.length with
  | [] => true
  | c :: _ => c == ' ' || c == '\t' || c == '\n' || c == '\r'

/-- Does a list item that starts here interrupt a paragraph?  Inside the containers of
the paragraph an ordered list has to start at one and the item must not be empty. -/
def itemInterrupts (inside : Bool) (s : List Char) : Bool :=
  match marker? s with
  | none => false
  | some m =>
    m.isSeparated s &&
      (!inside ||
        (m.mark == '-' || m.mark == '+' || m.mark == '*' || m.number == 1) &&
          (blankLine? (s.drop m.length)).isNone)

end Markdown
end LiveDoc
