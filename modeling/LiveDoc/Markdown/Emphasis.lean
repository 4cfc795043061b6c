/-
Pairing the runs of `*`, `_` and `~`.

The runs are taken from left to right.  One that can close emphasis is paired
with the nearest open run that suits it, and those between the two become text.
A run that finds nothing leaves a mark, so that later ones of its kind do not
look at the same open runs again.
-/
import LiveDoc.Markdown.Event
import LiveDoc.Markdown.Token

namespace LiveDoc
namespace Markdown

inductive Piece where
  | inline (i : Inline)
  | run (r : Run)
deriving Inhabited

/-- A run that has opened emphasis: how many of its signs are left, and what follows them
so far, in reverse. -/
structure OpenRun where
  run : Run
  left : Nat
  items : List Inline
deriving Inhabited

inductive RunKind where
  | tilde
  | oneSided (sign : Char)
  /-- Runs that can also open emphasis, by their length modulo three. -/
  | twoSided (sign : Char) (residue : Nat)
deriving DecidableEq

structure EmphasisState where
  /-- What precedes the first open run, in reverse. -/
  items : List Inline
  openRuns : List OpenRun
  /-- How many of the outermost open runs cannot match closing runs of a kind. -/
  bounds : List (RunKind × Nat)

namespace EmphasisState

def start : EmphasisState := ⟨[], [], []⟩

def add (s : EmphasisState) (i : Inline) : EmphasisState :=
  match s.openRuns with
  | [] => { s with items := i :: s.items }
  | o :: outer => { s with openRuns := { o with items := i :: o.items } :: outer }

def bound (s : EmphasisState) (kind : RunKind) : Nat := (s.bounds.lookup kind).getD 0

end EmphasisState

/-- Do two runs make a pair?  If one of them can both open and close, their lengths must not
sum to a multiple of three unless both are one. -/
def Run.suits (closer opener : Run) : Bool :=
  closer.sign == opener.sign &&
    (closer.sign != '~' || closer.length == opener.length) &&
    (!(closer.opens && closer.closes) && !(opener.opens && opener.closes) ||
      (closer.length + opener.length) % 3 != 0 || closer.length % 3 == 0)

def Run.kind (r : Run) : RunKind :=
  if r.sign = '~' then .tilde
  else if r.opens && r.closes then .twoSided r.sign (r.length % 3)
  else .oneSided r.sign

/-- How many of the outermost open runs a closing run leaves alone. -/
def EmphasisState.boundFor (s : EmphasisState) (r : Run) : Nat :=
  match r.kind with
  | .oneSided sign =>
    min (s.bound (.oneSided sign)) (s.bound (.twoSided sign (r.length % 3)))
  | kind => s.bound kind

def signs (sign : Char) (n : Nat) : Inline := .text (List.replicate n sign)

/-- What an open run and the items behind it are when nothing closes it, in reverse. -/
def OpenRun.flat (o : OpenRun) : List Inline := o.items ++ [signs o.run.sign o.left]

/-- The children between an opening and a closing run of `n` matched signs.  Two signs are
strong emphasis; a single one left over stands outside. -/
def emphasised : Nat → List Inline → List Inline
  | 0, children => children
  | 1, children => [.container .emphasis children]
  | n + 2, children => emphasised n [.container .strong children]

def enclosed (sign : Char) (n : Nat) (children : List Inline) : List Inline :=
  if sign = '~' then [.container .strikethrough children] else emphasised n children

/-- Looks for the innermost open run that suits a closing run among the first `depth`: the
reversed content behind it, the run, and the runs outside it. -/
def findOpener (closer : Run) : Nat → List OpenRun → Option (List Inline × OpenRun × List OpenRun)
  | 0, _ => none
  | _, [] => none
  | depth + 1, o :: outer =>
    if closer.suits o.run then some (o.items, o, outer)
    else (findOpener closer depth outer).map fun (items, opener, rest) =>
      (o.flat ++ items, opener, rest)

/-- Closes as much emphasis as a closing run with `left` signs left can.  `fuel` bounds the
number of pairs. -/
def closeRun (closer : Run) : Nat → Nat → EmphasisState → Nat × EmphasisState
  | 0, left, s => (left, s)
  | fuel + 1, left, s =>
    if left = 0 then (0, s)
    else
      match findOpener closer (s.openRuns.length - s.boundFor closer) s.openRuns with
      | none =>
        (left, { s with
          bounds := (closer.kind, s.openRuns.length) :: s.bounds.filter (·.1 != closer.kind) })
      | some (items, opener, outer) =>
        let n := min left opener.left
        let found := enclosed closer.sign n items.reverse
        let bounds := s.bounds.map fun (kind, k) => (kind, min k outer.length)
        let s : EmphasisState := ⟨s.items, outer, bounds⟩
        let s :=
          if n < opener.left then
            { s with openRuns := { opener with left := opener.left - n, items := found } :: outer }
          else found.foldl EmphasisState.add s
        closeRun closer fuel (left - n) s

def EmphasisState.push (s : EmphasisState) : Piece → EmphasisState
  | .inline i => s.add i
  | .run r =>
    let (left, s) := if r.closes then closeRun r r.length r.length s else (r.length, s)
    if left = 0 then s
    else if r.opens then { s with openRuns := ⟨r, left, []⟩ :: s.openRuns }
    else s.add (signs r.sign left)

def EmphasisState.finish (s : EmphasisState) : List Inline :=
  ((s.openRuns.flatMap OpenRun.flat) ++ s.items).reverse

def withEmphasis (pieces : List Piece) : List Inline :=
  (pieces.foldl EmphasisState.push .start).finish

end Markdown
end LiveDoc
