/-
Moving insertions together.

An insertion can move past kept elements if they are the same as those at its own
far end: it takes them in and gives as many back on the other side.  Each
insertion moves up and then down as far as it can and takes in the insertions it
meets.  It passes deletions, which stay where they are among the kept elements.
-/
import LiveDoc.Diff.Script

namespace LiveDoc
namespace Diff

variable {α : Type} [DecidableEq α]

/-- A script seen from one of its insertions: the segments before it, nearest first, what
is inserted, and the segments behind it. -/
structure Focus (α : Type) where
  before : List (Segment α)
  items : List α
  behind : List (Segment α)
deriving Inhabited

def Focus.script (f : Focus α) : List (Segment α) :=
  f.before.reverse ++ ⟨.insert, f.items⟩ :: f.behind

/-- Kept elements in front of a script, joined with those it starts with. -/
def keepBefore (items : List α) : List (Segment α) → List (Segment α)
  | ⟨.keep, more⟩ :: rest => ⟨.keep, items ++ more⟩ :: rest
  | script => ⟨.keep, items⟩ :: script

/-- Kept elements behind a reversed script, joined with those it ends with. -/
def keepBehind (items : List α) : List (Segment α) → List (Segment α)
  | ⟨.keep, more⟩ :: rest => ⟨.keep, more ++ items⟩ :: rest
  | script => ⟨.keep, items⟩ :: script

/-- Moves the insertion up as far as possible.  `fuel` bounds the number of moves. -/
def Focus.up : Nat → Focus α → Focus α
  | 0, f => f
  | fuel + 1, f =>
    match f.before with
    | [] => f
    | ⟨.keep, kept⟩ :: rest =>
      let n := commonSuffix kept f.items
      if n = 0 then f
      else
        let moved := kept.drop (kept.length - n)
        Focus.up fuel
          ⟨Segment.before ⟨.keep, kept.take (kept.length - n)⟩ rest,
           moved ++ f.items.take (f.items.length - n),
           keepBefore moved f.behind⟩
    | ⟨.insert, more⟩ :: rest => Focus.up fuel ⟨rest, more ++ f.items, f.behind⟩
    | ⟨.delete, gone⟩ :: rest => Focus.up fuel ⟨rest, f.items, ⟨.delete, gone⟩ :: f.behind⟩

/-- Moves the insertion down as far as possible.  `fuel` bounds the number of moves. -/
def Focus.down : Nat → Focus α → Focus α
  | 0, f => f
  | fuel + 1, f =>
    match f.behind with
    | [] => f
    | ⟨.keep, kept⟩ :: rest =>
      let n := commonPrefix kept f.items
      if n = 0 then f
      else
        let moved := kept.take n
        Focus.down fuel
          ⟨keepBehind moved f.before, f.items.drop n ++ moved,
           Segment.before ⟨.keep, kept.drop n⟩ rest⟩
    | ⟨.insert, more⟩ :: rest => Focus.down fuel ⟨f.before, f.items ++ more, rest⟩
    | ⟨.delete, gone⟩ :: rest => Focus.down fuel ⟨⟨.delete, gone⟩ :: f.before, f.items, rest⟩

def size (script : List (Segment α)) : Nat := script.foldr (fun s n => s.items.length + 1 + n) 0

/-- Moves the insertions together from the segments `before` on.  `fuel` bounds the number
of segments that are looked at. -/
def compactFrom : Nat → List (Segment α) → List (Segment α) → List (Segment α)
  | 0, before, script => before.reverse ++ script
  | _, before, [] => before.reverse
  | fuel + 1, before, s :: rest =>
    if s.change = .insert then
      let f : Focus α := ⟨before, s.items, rest⟩
      let n := size f.script
      let f := (f.up n).down n
      compactFrom fuel (⟨.insert, f.items⟩ :: f.before) f.behind
    else compactFrom fuel (s :: before) rest

/-- The script with its insertions moved together. -/
def compact (script : List (Segment α)) : List (Segment α) :=
  let n := size script + 1
  compactFrom (n * n) [] script

/-- The script as marked elements, with the deletions before the insertions between any two
kept elements.  `deleted` and `inserted` are those seen since the last kept one. -/
def marksFrom (deleted inserted : List α) : List (Segment α) → List (Change × α)
  | [] => deleted.map (.delete, ·) ++ inserted.map (.insert, ·)
  | s :: rest =>
    match s.change with
    | .keep =>
      deleted.map (.delete, ·) ++ inserted.map (.insert, ·) ++ s.items.map (.keep, ·) ++
        marksFrom [] [] rest
    | .delete => marksFrom (deleted ++ s.items) inserted rest
    | .insert => marksFrom deleted (inserted ++ s.items) rest

def marks (script : List (Segment α)) : List (Change × α) := marksFrom [] [] script

end Diff
end LiveDoc
