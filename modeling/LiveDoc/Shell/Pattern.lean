/-
Patterns of the shell, in which some characters stand for others.
-/
import LiveDoc.Shell.Token

namespace LiveDoc
namespace Shell

structure Cell where
  char : Char
  /-- Does it stand for itself only, because it was quoted? -/
  quoted : Bool
  /-- May the word be split here, because the character was substituted? -/
  splits : Bool
deriving Repr, DecidableEq, Inhabited

inductive Wildcard where
  | this (c : Char)
  | one
  | any
  | range (inside : Bool) (ranges : List (Char × Char))
deriving Repr, DecidableEq, Inhabited

namespace Wildcard

def ranges? : Nat → Bool → List Cell → Option (List (Char × Char) × List Cell)
  | 0, _, _ => none
  | _, _, [] => none
  | fuel + 1, first, c :: rest =>
    if c.char = ']' ∧ !c.quoted ∧ !first then some ([], rest)
    else
      match rest with
      | d :: e :: rest' =>
        if d.char = '-' ∧ !d.quoted ∧ !(e.char = ']' ∧ !e.quoted) then
          (ranges? fuel false rest').map fun (rs, s) => ((c.char, e.char) :: rs, s)
        else (ranges? fuel false rest).map fun (rs, s) => ((c.char, c.char) :: rs, s)
      | rest => (ranges? fuel false rest).map fun (rs, s) => ((c.char, c.char) :: rs, s)

def set? (cells : List Cell) : Option (Wildcard × List Cell) :=
  let (inside, cells) := match cells with
    | c :: rest => if c.char = '!' ∧ !c.quoted then (false, rest) else (true, cells)
    | [] => (true, [])
  (ranges? (cells.length + 1) true cells).map fun (rs, rest) => (.range inside rs, rest)

def ofCells : Nat → List Cell → List Wildcard
  | 0, _ => []
  | _, [] => []
  | fuel + 1, c :: rest =>
    if c.quoted then .this c.char :: ofCells fuel rest
    else if c.char = '*' then .any :: ofCells fuel rest
    else if c.char = '?' then .one :: ofCells fuel rest
    else if c.char = '[' then
      match set? rest with
      | some (w, rest) => w :: ofCells fuel rest
      | none => .this c.char :: ofCells fuel rest
    else .this c.char :: ofCells fuel rest

def matchesText : List Wildcard → Text → Bool
  | [], s => s.isEmpty
  | .any :: p, [] => matchesText p []
  | .any :: p, c :: s => matchesText p (c :: s) || matchesText (.any :: p) s
  | _ :: _, [] => false
  | .one :: p, _ :: s => matchesText p s
  | .this x :: p, c :: s => x == c && matchesText p s
  | .range inside rs :: p, c :: s =>
    (rs.any fun r => r.1 ≤ c && c ≤ r.2) == inside && matchesText p s
termination_by p s => p.length + s.length

end Wildcard

def globMatches (cells : List Cell) (s : Text) : Bool :=
  Wildcard.matchesText (Wildcard.ofCells (cells.length + 1) cells) s

/-- Does an expanded word hold a character that stands for others? -/
def isGlob (cells : List Cell) : Bool :=
  cells.any fun c => !c.quoted && (c.char == '*' || c.char == '?' || c.char == '[')

/-- A text without the shortest, or the longest, start of it that matches. -/
def withoutStart (longest : Bool) (cells : List Cell) (s : Text) : Text :=
  let lengths := List.range (s.length + 1)
  let lengths := if longest then lengths.reverse else lengths
  match lengths.find? fun n => globMatches cells (s.take n) with
  | some n => s.drop n
  | none => s

def withoutEnd (longest : Bool) (cells : List Cell) (s : Text) : Text :=
  let lengths := List.range (s.length + 1)
  let lengths := if longest then lengths else lengths.reverse
  match lengths.find? fun n => globMatches cells (s.drop n) with
  | some n => s.take n
  | none => s

end Shell
end LiveDoc
