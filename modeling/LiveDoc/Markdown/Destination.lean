/-
Where links lead: destinations, titles and reference definitions.

Nothing is kept of a link but that it is one, so these readers return how many
characters they take.
-/
import LiveDoc.Markdown.Interrupt

namespace LiveDoc
namespace Markdown

/-- How many round brackets may be nested in a destination, beside the first one. -/
def maxNesting : Nat := 5

/-- Reads the rest of a destination in angle brackets, of which `n` characters have been
read. -/
def angledFrom (n : Nat) : List Char → Option Nat
  | [] => none
  | '\\' :: c :: rest =>
    if isAsciiPunctuation c then angledFrom (n + 2) rest else angledFrom (n + 1) (c :: rest)
  | c :: rest =>
    if c = '\n' ∨ c = '\r' ∨ c = '<' then none
    else if c = '>' then some (n + 1)
    else angledFrom (n + 1) rest

/-- Reads the rest of a bare destination, of which `n` characters with `nesting` open
brackets have been read. -/
def bareFrom (nesting n : Nat) : List Char → Option Nat
  | [] => if nesting = 0 then some n else none
  | '\\' :: c :: rest =>
    if isAsciiPunctuation c then bareFrom nesting (n + 2) rest
    else bareFrom nesting (n + 1) (c :: rest)
  | c :: rest =>
    if c ≤ ' ' then if nesting = 0 then some n else none
    else if c = '(' then if maxNesting < nesting then none else bareFrom (nesting + 1) (n + 1) rest
    else if c = ')' then if nesting = 0 then some n else bareFrom (nesting - 1) (n + 1) rest
    else bareFrom nesting (n + 1) rest

/-- The destination that a text starts with.  A bare one may be empty. -/
def destination? : List Char → Option Nat
  | '<' :: rest => angledFrom 1 rest
  | s => bareFrom 0 0 s

/-- Reads the rest of a title, of which `n` characters have been read.  `goesOn?` gives the
marks of a further line. -/
def titleFrom (goesOn? : List Char → Option Nat) (closing : Char) :
    Nat → Nat → List Char → Option Nat
  | 0, _, _ => none
  | _, _, [] => none
  | fuel + 1, n, c :: rest =>
    if c = '\n' ∨ c = '\r' then
      let k := (lineEnd? (c :: rest)).getD 1
      let next := (c :: rest).drop k
      (goesOn? next).bind fun m => titleFrom goesOn? closing fuel (n + k + m) (next.drop m)
    else if c = '(' ∧ closing = ')' then none
    else if c = closing then some (n + 1)
    else
      match c, rest with
      | '\\', d :: rest' =>
        if isAsciiPunctuation d then titleFrom goesOn? closing fuel (n + 2) rest'
        else titleFrom goesOn? closing fuel (n + 1) rest
      | _, _ => titleFrom goesOn? closing fuel (n + 1) rest

def title? (goesOn? : List Char → Option Nat) : List Char → Option Nat
  | '"' :: rest => titleFrom goesOn? '"' (rest.length + 1) 1 rest
  | '\'' :: rest => titleFrom goesOn? '\'' (rest.length + 1) 1 rest
  | '(' :: rest => titleFrom goesOn? ')' (rest.length + 1) 1 rest
  | _ => none

/-! ## Links with their destination -/

/-- The white space that a text starts with, one line end and the marks behind it included. -/
def separator (marks : List Char → Nat) (s : List Char) : Nat :=
  let n := countWhile isInlineSpace s
  match lineEnd? (s.drop n) with
  | some k =>
    let n := n + k
    let n := n + marks (s.drop n)
    n + countWhile isInlineSpace (s.drop n)
  | none => n

def linkTarget? (marks : List Char → Nat) : List Char → Option Nat
  | '(' :: s => do
    let n := separator marks s
    let n := n + (← destination? (s.drop n))
    let n := n + separator marks (s.drop n)
    let n :=
      match title? (fun next => some (marks next)) (s.drop n) with
      | some k => n + k + separator marks (s.drop (n + k))
      | none => n
    match s.drop n with
    | ')' :: _ => some (n + 2)
    | _ => none
  | _ => none

/-! ## Definitions -/

/-- The white space within a definition, with at most one line end: its length, and whether
there is a line end in it. -/
def definitionSpace? (containers : List Container) (s : List Char) : Option (Nat × Bool) :=
  let n := countWhile isInlineSpace s
  match lineEnd? (s.drop n) with
  | none => some (n, false)
  | some k => do
    let m ← goesOn? containers .always (s.drop (n + k))
    let n := n + k + m
    let n := n + countWhile isInlineSpace (s.drop n)
    if (lineEnd? (s.drop n)).isSome then none else some (n, true)

/-- Reads what follows the destination of a definition: its length, zero if there is no
title.  A title on the line of the destination must be alone there; on a line of its own
it is left to the next block if something follows it. -/
def definitionTitle? (containers : List Container) (s : List Char) : Option Nat :=
  match definitionSpace? containers s with
  | none => some 0
  | some (n, broken) =>
    if n = 0 then none
    else
      match title? (goesOn? containers .always) (s.drop n) with
      | some k =>
        if (blankLine? (s.drop (n + k))).isSome then some (n + k)
        else if broken then some 0
        else none
      | none => if broken then some 0 else none

/-- Reads a definition: its length without the line end, and the label it defines. -/
def definition? (containers : List Container) : List Char → Option (Nat × Label)
  | '[' :: s => do
    let (n, label) ← Label.read? (goesOn? containers .inside) s
    match s.drop n with
    | ':' :: s => do
      let (a, _) ← definitionSpace? containers s
      let d ← destination? (s.drop a)
      if d = 0 then none
      else do
        let t ← definitionTitle? containers (s.drop (a + d))
        some (n + 2 + a + d + t, label)
    | _ => none
  | _ => none

end Markdown
end LiveDoc
