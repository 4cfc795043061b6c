/-
Edit scripts, and how one is found.

A script turns one sequence into another.  It is a list of segments that keep,
delete or insert some elements each; what it keeps and deletes is the old
sequence, what it keeps and inserts is the new one.

What two sequences have in common at their ends is kept.  The rest is divided at
a point on a shortest path, and each half is treated in the same way.  A path
from the start of two sequences to their ends deletes an element of the old one,
inserts one of the new one, or keeps an element both have.  Two searches run
towards each other, one from each end, round by round with one more edit each.
Diagonal k is where k more elements of the old sequence than of the new one have
been passed, and for each diagonal the furthest point is kept.  Where the two
searches meet, a shortest path passes.
-/
namespace LiveDoc
namespace Diff

inductive Change where
  | keep
  | delete
  | insert
deriving Repr, DecidableEq, Inhabited

/-- Elements that follow each other and are all kept, deleted or inserted. -/
structure Segment (α : Type) where
  change : Change
  items : List α
deriving Repr, DecidableEq, Inhabited

variable {α : Type}

def Segment.old (s : Segment α) : List α :=
  match s.change with
  | .insert => []
  | _ => s.items

def Segment.new (s : Segment α) : List α :=
  match s.change with
  | .delete => []
  | _ => s.items

def oldSide (script : List (Segment α)) : List α := script.flatMap Segment.old

def newSide (script : List (Segment α)) : List α := script.flatMap Segment.new

/-- A segment in front of a script, left out if it is empty. -/
def Segment.before (s : Segment α) (script : List (Segment α)) : List (Segment α) :=
  if s.items.isEmpty then script else s :: script

def commonPrefix [DecidableEq α] : List α → List α → Nat
  | a :: as, b :: bs => if a = b then commonPrefix as bs + 1 else 0
  | _, _ => 0

def commonSuffix [DecidableEq α] (as bs : List α) : Nat := commonPrefix as.reverse bs.reverse

/-! ## The middle of a shortest script -/

/-- How far a search has come on each diagonal, counted in elements of the old sequence. -/
structure Reach where
  /-- Diagonal `k` stands at index `k + origin`. -/
  origin : Nat
  table : Array Nat
deriving Inhabited

namespace Reach

/-- A search that has not begun, on diagonals from `-size` to `size`. -/
def start (size : Nat) : Reach := ⟨size, Array.replicate (2 * size + 1) 0⟩

def on (r : Reach) (k : Int) : Nat := r.table.getD (k + r.origin).toNat 0

def extend (r : Reach) (k : Int) (x : Nat) : Reach :=
  { r with table := r.table.setIfInBounds (k + r.origin).toNat x }

end Reach

/-- The diagonals that `d` edits can lead to, from the highest down. -/
def diagonals (d : Nat) : List Int := (List.range (d + 1)).map fun (i : Nat) => (d : Int) - 2 * i

def entry (r : Reach) (d : Nat) (k : Int) : Nat :=
  if k = -d ∨ (k ≠ d ∧ r.on (k - 1) < r.on (k + 1)) then r.on (k + 1) else r.on (k - 1) + 1

variable [DecidableEq α]

/-- One round of the search from the start.  It ends where it meets the other search: the
result is the point where the path enters the diagonal on which they meet. -/
def forwardRound (old new : List α) (back : Reach) (d : Nat) :
    List Int → Reach → Except (Nat × Nat) Reach
  | [], r => .ok r
  | k :: rest, r =>
    let x := entry r d k
    let y := ((x : Int) - k).toNat
    let x' := x + commonPrefix (old.drop x) (new.drop y)
    let r := r.extend k x'
    let delta : Int := (old.length : Int) - new.length
    if delta % 2 = 1 ∧ (k - delta).natAbs + 1 ≤ d ∧ old.length ≤ x' + back.on (delta - k) then
      .error (x, y)
    else forwardRound old new back d rest r

/-- One round of the search from the end, which takes both sequences in reverse.  The result
is the point at which the path leaves the diagonal on which they meet. -/
def backwardRound (old new : List α) (forth : Reach) (d : Nat) :
    List Int → Reach → Except (Nat × Nat) Reach
  | [], r => .ok r
  | k :: rest, r =>
    let x := entry r d k
    let y := ((x : Int) - k).toNat
    let n := commonPrefix (old.drop x) (new.drop y)
    let r := r.extend k (x + n)
    let delta : Int := (old.length : Int) - new.length
    if delta % 2 = 0 ∧ (k - delta).natAbs ≤ d ∧ old.length ≤ x + n + forth.on (delta - k) then
      .error (old.length - (x + n), new.length - (y + n))
    else backwardRound old new forth d rest r

/-- Runs both searches from round `d` on.  `fuel` bounds the number of rounds. -/
def searchFrom (old new : List α) : Nat → Nat → Reach → Reach → Option (Nat × Nat)
  | 0, _, _, _ => none
  | fuel + 1, d, forth, back =>
    match forwardRound old new back d (diagonals d) forth with
    | .error point => some point
    | .ok forth =>
      match backwardRound old.reverse new.reverse forth d (diagonals d) back with
      | .error point => some point
      | .ok back => searchFrom old new fuel (d + 1) forth back

/-- A point on a shortest path: how many elements of each sequence precede it. -/
def middle? (old new : List α) : Option (Nat × Nat) :=
  let rounds := (old.length + new.length + 1) / 2 + 1
  searchFrom old new rounds 0 (.start (rounds + 1)) (.start (rounds + 1))

/-! ## Dividing -/

def replaced (old new : List α) : List (Segment α) :=
  Segment.before ⟨.delete, old⟩ (Segment.before ⟨.insert, new⟩ [])

/-- A script from one sequence to another.  `fuel` bounds the depth of the division. -/
def scriptFrom : Nat → List α → List α → List (Segment α)
  | 0, old, new => replaced old new
  | fuel + 1, old, new =>
    let n := commonPrefix old new
    let old' := old.drop n
    let new' := new.drop n
    let m := commonSuffix old' new'
    let old'' := old'.take (old'.length - m)
    let new'' := new'.take (new'.length - m)
    let inner :=
      if old''.isEmpty || new''.isEmpty then replaced old'' new''
      else
        match middle? old'' new'' with
        | some (x, y) =>
          scriptFrom fuel (old''.take x) (new''.take y) ++
            scriptFrom fuel (old''.drop x) (new''.drop y)
        | none => replaced old'' new''
    Segment.before ⟨.keep, old.take n⟩
      (inner ++ Segment.before ⟨.keep, old'.drop (old'.length - m)⟩ [])

/-- A script from one sequence to another with as few edits as possible. -/
def script (old new : List α) : List (Segment α) :=
  scriptFrom (old.length + new.length + 1) old new

end Diff
end LiveDoc
