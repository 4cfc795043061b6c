/-
Labels of links and footnotes.

A label is the text between square brackets by which a definition is found.  Two
labels are the same if they agree after case folding, with each run of white
space read as one space and none at the ends.
-/
import LiveDoc.Markdown.Line
import LiveDoc.Text.CaseFold

namespace LiveDoc
namespace Markdown

structure Label where
  key : List Char
deriving Repr, DecidableEq, Inhabited

namespace Label

/-- The label written as the given text, in which runs of white space are single spaces. -/
def ofText (s : List Char) : Label :=
  let front := s.dropWhile isAsciiSpace
  ⟨foldCase (front.reverse.dropWhile isAsciiSpace).reverse⟩

def maxLength : Nat := 999

/-- Skips a run of white space with at most one line end in it, behind which `marks?`
says how many characters of container marks follow, if the label may go on there at
all.  The result is the number of characters skipped and what follows them. -/
def skipSpace? (marks? : List Char → Option Nat) : Nat → Bool → Nat → List Char →
    Option (Nat × List Char)
  | 0, _, n, s => some (n, s)
  | _, _, n, [] => some (n, [])
  | fuel + 1, broken, n, c :: rest =>
    if c = '\n' ∨ c = '\r' then
      if broken then none
      else do
        let k := (lineEnd? (c :: rest)).getD 1
        let next := (c :: rest).drop k
        let m ← marks? next
        skipSpace? marks? fuel true (n + k + m) (next.drop m)
    else if isInlineSpace c then skipSpace? marks? fuel broken (n + 1) rest
    else some (n, c :: rest)

/-- Reads the rest of a label behind its opening bracket: the number of characters up to
and including the closing bracket, and the text with white space collapsed.  `text` is
what has been read of it in reverse. -/
def readFrom (marks? : List Char → Option Nat) : Nat → Nat → List Char → List Char →
    Option (Nat × List Char)
  | 0, _, _, _ => none
  | fuel + 1, n, text, s =>
    if maxLength < text.length then none
    else
      match s with
      | [] => none
      | '[' :: _ => none
      | ']' :: _ => if text.all isAsciiSpace then none else some (n + 1, text.reverse)
      | ['\\'] => none
      | '\\' :: c :: rest => readFrom marks? fuel (n + 2) (c :: '\\' :: text) rest
      | c :: rest =>
        if isAsciiSpace c then do
          let (k, behind) ← skipSpace? marks? (rest.length + 1) false 0 (c :: rest)
          readFrom marks? fuel (n + k) (' ' :: text) behind
        else readFrom marks? fuel (n + 1) (c :: text) rest

/-- Reads a label behind its opening bracket: the number of characters up to and including
the closing bracket, and the label. -/
def read? (marks? : List Char → Option Nat) (s : List Char) : Option (Nat × Label) :=
  (readFrom marks? (s.length + 1) 0 [] s).map fun (n, text) => (n, ofText text)

def readOnLine? (s : List Char) : Option (Nat × Label) := read? (fun _ => none) s

end Label

/-- What stands between square brackets: the label of a link or of a footnote. -/
inductive Bracket where
  | link (label : Label)
  | footnote (label : Label)
deriving Repr, DecidableEq

/-- Reads a label with its brackets: the number of characters it takes, and what it is.
`marks` gives the length of the container marks at the start of a line. -/
def Bracket.read? (marks : List Char → Nat) : List Char → Option (Nat × Bracket)
  | '[' :: rest =>
    let asFootnote := match rest with
      | '^' :: ']' :: _ => none
      | '^' :: name => (Label.readOnLine? name).map fun (n, label) => (n + 2, Bracket.footnote label)
      | _ => none
    match asFootnote with
    | some found => some found
    | none =>
      (Label.read? (fun s => some (marks s)) rest).map fun (n, label) => (n + 1, .link label)
  | _ => none

/-- Reads the start of a footnote definition: the number of characters up to and including
the colon, and the label. -/
def footnoteStart? : List Char → Option (Nat × Label)
  | '[' :: '^' :: rest => do
    let (n, label) ← Label.readOnLine? rest
    match rest.drop n with
    | ':' :: _ => some (n + 3, label)
    | _ => none
  | _ => none

end Markdown
end LiveDoc
