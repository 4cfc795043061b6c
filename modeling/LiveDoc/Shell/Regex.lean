/-
Regular expressions that search in lines.
-/
import LiveDoc.Shell.Token

namespace LiveDoc
namespace Shell

inductive Regex where
  | nothing
  | this (c : Char)
  | one
  | range (inside : Bool) (ranges : List (Char × Char))
  | start
  | stop
  | group (number : Nat) (r : Regex)
  | sequence (a b : Regex)
  | either (a b : Regex)
  /-- As many times as possible, at least so often and at most so often. -/
  | many (r : Regex) (least : Nat) (most : Option Nat)
deriving Repr, DecidableEq, Inhabited

namespace Regex

/-! ## Reading -/

def ranges : Nat → Bool → Text → List (Char × Char) × Text
  | 0, _, s => ([], s)
  | _, _, [] => ([], [])
  | fuel + 1, first, c :: rest =>
    if c = ']' ∧ !first then ([], rest)
    else
      match rest with
      | '-' :: d :: rest' =>
        if d = ']' then
          let (rs, s) := ranges fuel false rest
          ((c, c) :: rs, s)
        else
          let (rs, s) := ranges fuel false rest'
          ((c, d) :: rs, s)
      | rest =>
        let (rs, s) := ranges fuel false rest
        ((c, c) :: rs, s)

def set (s : Text) : Regex × Text :=
  match s with
  | '^' :: rest =>
    let (rs, s) := ranges (rest.length + 1) true rest
    (.range false rs, s)
  | s =>
    let (rs, s) := ranges (s.length + 1) true s
    (.range true rs, s)

/-- The token at the start of an expression: whether it is one of the special characters
`( ) | + ? *`, which the plain syntax writes with a backslash but for the last. -/
def special (extended : Bool) (s : Text) : Option (Char × Text) :=
  match s with
  | '*' :: rest => some ('*', rest)
  | '\\' :: c :: rest => if !extended ∧ "()|+?".toList.contains c then some (c, rest) else none
  | c :: rest => if extended ∧ "()|+?".toList.contains c then some (c, rest) else none
  | [] => none

mutual

/-- Reads alternatives up to a closing parenthesis; `n` groups have been opened before. -/
def alternatives (extended : Bool) : Nat → Nat → Text → Regex × Nat × Text
  | 0, n, s => (.nothing, n, s)
  | fuel + 1, n, s =>
    let (a, n, s) := items extended fuel true n s
    match special extended s with
    | some ('|', rest) =>
      let (b, n, s) := alternatives extended fuel n rest
      (.either a b, n, s)
    | _ => (a, n, s)

def items (extended : Bool) : Nat → Bool → Nat → Text → Regex × Nat × Text
  | 0, _, n, s => (.nothing, n, s)
  | fuel + 1, first, n, s =>
    match s with
    | [] => (.nothing, n, [])
    | c :: rest =>
      let (atom, n, s) : Option Regex × Nat × Text := match special extended s with
        | some ('(', rest) =>
          let number := n + 1
          let (r, n, s) := alternatives extended fuel number rest
          match special extended s with
          | some (')', s) => (some (.group number r), n, s)
          | _ => (some (.group number r), n, s)
        | some (')', _) => (none, n, s)
        | some ('|', _) => (none, n, s)
        | some (c, rest) => (some (.this c), n, rest)
        | none =>
          if c = '.' then (some .one, n, rest)
          else if c = '[' then
            let (r, s) := set rest
            (some r, n, s)
          else if c = '^' ∧ (first ∨ extended) then (some .start, n, rest)
          else if c = '$' ∧ (rest.isEmpty ∨ extended) then (some .stop, n, rest)
          else
            match c, rest with
            | '\\', 'n' :: rest => (some (.this '\n'), n, rest)
            | '\\', 't' :: rest => (some (.this '\t'), n, rest)
            | '\\', d :: rest => (some (.this d), n, rest)
            | c, rest => (some (.this c), n, rest)
      match atom with
      | none => (.nothing, n, s)
      | some atom =>
        let (atom, s) : Regex × Text := match special extended s with
          | some ('*', rest) => (.many atom 0 none, rest)
          | some ('+', rest) => (.many atom 1 none, rest)
          | some ('?', rest) => (.many atom 0 (some 1), rest)
          | _ => (atom, s)
        let (others, n, s) := items extended fuel false n s
        (.sequence atom others, n, s)

end

def ofText (extended : Bool) (s : Text) : Regex :=
  (alternatives extended (2 * s.length + 2) 0 s).1

/-! ## Matching -/

abbrev Groups := List (Nat × Text)

/-- Matches at the start of a text and goes on with the rest. -/
def matchAt (sameCase : Char → Char → Bool) :
    Nat → Regex → Bool → Text → Groups → (Bool → Text → Groups → Option (Text × Groups)) →
      Option (Text × Groups)
  | 0, _, _, _, _, _ => none
  | fuel + 1, r, atStart, s, groups, k =>
    match r with
    | .nothing => k atStart s groups
    | .this c =>
      match s with
      | d :: rest => if sameCase c d then k false rest groups else none
      | [] => none
    | .one =>
      match s with
      | _ :: rest => k false rest groups
      | [] => none
    | .range inside rs =>
      match s with
      | d :: rest =>
        if (rs.any fun r => r.1 ≤ d && d ≤ r.2) == inside then k false rest groups else none
      | [] => none
    | .start => if atStart then k atStart s groups else none
    | .stop => if s.isEmpty then k atStart s groups else none
    | .group n r =>
      matchAt sameCase fuel r atStart s groups fun b rest groups =>
        k b rest ((n, s.take (s.length - rest.length)) :: groups)
    | .sequence a b =>
      matchAt sameCase fuel a atStart s groups fun atStart s groups =>
        matchAt sameCase fuel b atStart s groups k
    | .either a b =>
      match matchAt sameCase fuel a atStart s groups k with
      | some found => some found
      | none => matchAt sameCase fuel b atStart s groups k
    | .many r least most =>
      let once := if most = some 0 then none
        else matchAt sameCase fuel r atStart s groups fun b rest groups =>
          if rest.length < s.length then
            matchAt sameCase fuel (.many r (least - 1) (most.map (· - 1))) b rest groups k
          else none
      match once with
      | some found => some found
      | none => if least = 0 then k atStart s groups else none

/-- Where an expression matches first: what is before it, what it matches, what is behind it,
and what its groups match. -/
def search (sameCase : Char → Char → Bool) (r : Regex) :
    Bool → Text → Option (Text × Text × Text × Groups)
  | atStart, s =>
    match matchAt sameCase (4 * s.length + 10000) r atStart s [] fun _ rest groups =>
        some (rest, groups) with
    | some (rest, groups) => some ([], s.take (s.length - rest.length), rest, groups)
    | none =>
      match s with
      | [] => none
      | c :: s => (search sameCase r false s).map fun (before, found) => (c :: before, found)
termination_by _ s => s.length

end Regex
end Shell
end LiveDoc
