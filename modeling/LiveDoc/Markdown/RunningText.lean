/-
Running text: the content of a paragraph, a heading or a table cell.

Code spans, raw HTML and links are found first, from left to right, and bind
tighter than emphasis.  A closing bracket looks back to the last opening one;
what stands between them is a link if a target follows or a definition matches.
There are no links within links, so a link switches off the brackets around it.
-/
import LiveDoc.Markdown.Autolink
import LiveDoc.Markdown.Destination
import LiveDoc.Markdown.Emphasis

namespace LiveDoc
namespace Markdown

structure Definitions where
  links : List Label
  footnotes : List Label
deriving Repr, Inhabited

/-- The tokens of running text, and the containers whose marks its lines carry. -/
structure RunningText where
  containers : List Container
  tokens : List Token
deriving Repr, Inhabited

structure OpenBracket where
  image : Bool
  /-- Whether there may still be a link here. -/
  active : Bool
  place : Place
  before : List Piece
deriving Inhabited

/-- The content read so far: the pieces behind the innermost open bracket, in reverse, and
the open brackets, innermost first. -/
structure LinkState where
  pieces : List Piece
  brackets : List OpenBracket
deriving Inhabited

namespace LinkState

def start : LinkState := ⟨[], []⟩

def add (s : LinkState) (p : Piece) : LinkState := { s with pieces := p :: s.pieces }

def addText (s : LinkState) (text : List Char) : LinkState := s.add (.inline (.text text))

/-- What an open bracket and the pieces behind it are without a link. -/
def flat (pieces : List Piece) (b : OpenBracket) : List Piece :=
  pieces ++ .inline (.text (if b.image then ['!', '['] else ['['])) :: b.before

def allPieces (s : LinkState) : List Piece := s.brackets.foldl flat s.pieces

/-- Closes the bracket `b` as a link or an image around the pieces behind it. -/
def close (s : LinkState) (b : OpenBracket) : LinkState :=
  let node := Inline.container (if b.image then .image else .link) (withEmphasis s.pieces.reverse)
  ⟨.inline node :: b.before,
   if b.image then s.brackets
   else s.brackets.map fun outer => { outer with active := outer.active && outer.image }⟩

end LinkState

/-- What stands behind a closing bracket. -/
inductive Follower where
  | label (label : Label) (stop : Nat)
  /-- A pair of brackets with nothing between them. -/
  | emptyBrackets
  | other

def followerOf (marks : List Char → Nat) : List Token → Follower
  | [] => .other
  | t :: _ =>
    match t.place.rest with
    | '[' :: ']' :: _ => .emptyBrackets
    | s =>
      match Bracket.read? marks s with
      | some (n, .link label) => .label label (t.place.pos + n)
      | _ => .other

/-- The tokens with the one that holds the position `pos` kept from being a reference by
itself, and the tokens behind it. -/
def markReference (pos : Nat) : List Token → Option (List Token × List Token)
  | [] => none
  | t :: rest =>
    if t.stop ≤ pos then (markReference pos rest).map fun (marked, behind) => (t :: marked, behind)
    else some ({ t with kind := .closing false } :: rest, rest)

def labelBetween (marks : List Char → Nat) (b : OpenBracket) (stop : Nat) : Option Bracket :=
  let s := b.place.rest.take (stop - b.place.pos)
  match Bracket.read? marks s with
  | some (n, bracket) => if n = s.length then some bracket else none
  | none => none

def closingTicks (count : Nat) : List Token → Option (List Token)
  | [] => none
  | t :: rest =>
    match t.kind with
    | .ticks n _ => if n = count then some rest else closingTicks count rest
    | _ => closingTicks count rest

/-- The raw HTML or address behind a left angle bracket: what it is and where it ends. -/
def angled? (marks : List Char → Nat) : List Token → Option (Inline × Nat)
  | [] => none
  | t :: _ =>
    let s := t.place.rest
    match autolink? s with
    | some n => some (.container .link [.text (s.take (n - 1))], t.place.pos + n)
    | none => (Html.inline? marks s).map fun behind =>
        (.content, t.place.pos + (s.length - behind.length))

/-- Takes in a closing bracket that ends at `stop`, and the tokens behind it.  The result
is the state and the tokens that are left. -/
def closeBracket (defs : Definitions) (marks : List Char → Nat) (t : Token) (mayRefer : Bool)
    (rest : List Token) (s : LinkState) : LinkState × List Token :=
  match s.brackets with
  | [] => (s.addText [']'], rest)
  | b :: outer =>
    let s : LinkState := ⟨s.pieces, outer⟩
    let asText : LinkState := (⟨LinkState.flat s.pieces b, outer⟩ : LinkState).addText [']']
    if !b.active then (asText, rest)
    else
      match linkTarget? marks (t.place.rest.drop 1) with
      | some n => (s.close b, Token.after (t.stop + n) rest)
      | none =>
        match followerOf marks rest with
        | .label label stop =>
          match markReference (stop - 1) rest with
          | none => (asText, rest)
          | some (marked, behind) =>
            if defs.links.contains label then (s.close b, behind) else (asText, marked)
        | follower =>
          if !mayRefer then (asText, rest)
          else
            match labelBetween marks b t.stop with
            | some (.footnote label) =>
              if defs.footnotes.contains label then
                let before := if b.image then .inline (.text ['!']) :: b.before else b.before
                (⟨(⟨.inline .content :: before, outer⟩ : LinkState).allPieces, []⟩, rest)
              else (asText, rest)
            | some (.link label) =>
              if defs.links.contains label then
                (s.close b,
                  match follower with
                  | .emptyBrackets => rest.drop 2
                  | _ => rest)
              else (asText, rest)
            | none => (asText, rest)

/-- Takes in the tokens.  `fuel` bounds their number. -/
def readTokens (defs : Definitions) (marks : List Char → Nat) :
    Nat → List Token → LinkState → LinkState
  | 0, _, s => s
  | _, [], s => s
  | fuel + 1, t :: rest, s =>
    match t.kind with
    | .text text => readTokens defs marks fuel rest (s.addText text)
    | .run r => readTokens defs marks fuel rest (s.add (.run r))
    | .lineBreak => readTokens defs marks fuel rest (s.add (.inline .content))
    | .bracket image =>
      readTokens defs marks fuel rest ⟨[], ⟨image, true, t.place.skip (t.length - 1), s.pieces⟩ :: s.brackets⟩
    | .closing mayRefer =>
      let (s, rest) := closeBracket defs marks t mayRefer rest s
      readTokens defs marks fuel rest s
    | .angle =>
      match angled? marks rest with
      | some (i, stop) => readTokens defs marks fuel (Token.after stop rest) (s.add (.inline i))
      | none => readTokens defs marks fuel rest (s.addText ['<'])
    | .ticks count escaped =>
      let wanted := if escaped then count - 1 else count
      let ticks n := List.replicate n '\x60'
      match if wanted = 0 then none else closingTicks wanted rest with
      | some behind =>
        let s := if escaped then s.addText (ticks 1) else s
        readTokens defs marks fuel behind (s.add (.inline .content))
      | none => readTokens defs marks fuel rest (s.addText (ticks count))

/-- The inline content of running text in a document with the given definitions. -/
def RunningText.inline (defs : Definitions) (text : RunningText) : List Inline :=
  let marks := markLength text.containers
  let s := readTokens defs marks (text.tokens.length + 1) text.tokens .start
  withEmphasis s.allPieces.reverse

end Markdown
end LiveDoc
