/-
The tokens of running text.

Running text is cut into plain text and the signs that may mean something.  What
they do mean depends on their neighbours and is found out later, so a token keeps
its place in the text.
-/
import LiveDoc.Markdown.Line
import LiveDoc.Text.CharRef
import LiveDoc.Text.CharClass

namespace LiveDoc
namespace Markdown

/-- A run of one of the signs `*`, `_` and `~`, and whether emphasis may open or close
there. -/
structure Run where
  sign : Char
  length : Nat
  opens : Bool
  closes : Bool
deriving Repr, DecidableEq, Inhabited

inductive TokenKind where
  | text (s : List Char)
  | run (r : Run)
  /-- Backticks.  A backslash before them takes the first one away as an opening mark. -/
  | ticks (count : Nat) (escaped : Bool)
  | angle
  | bracket (image : Bool)
  /-- A closing bracket, and whether the brackets alone may be a reference. -/
  | closing (mayRefer : Bool)
  | lineBreak
deriving Repr, DecidableEq, Inhabited

structure Token where
  kind : TokenKind
  place : Place
  length : Nat
deriving Repr, DecidableEq, Inhabited

namespace Token

def stop (t : Token) : Nat := t.place.pos + t.length

def after (pos : Nat) (tokens : List Token) : List Token :=
  match tokens.dropWhile fun t => t.stop ≤ pos with
  | [] => []
  | t :: rest =>
    let skipped := pos - t.place.pos
    if skipped = 0 then t :: rest
    else
      let kind := match t.kind with
        | .text s => .text (s.drop skipped)
        | kind => kind
      ⟨kind, t.place.skip skipped, t.length - skipped⟩ :: rest

end Token

/-! ## Emphasis -/

/-- Can a run between two characters open emphasis?  Nothing stands before it at the start
of a line. -/
def opensEmphasis (sign : Char) (length : Nat) (before behind : Option Char) : Bool :=
  match behind, before with
  | none, _ => false
  | some next, none => !isBlank next
  | some next, some last =>
    !isBlank next &&
      (sign == '*' && !isPunctuation next || sign == '~' && 1 < length ||
        sign == '~' && last == '~' && !isPunctuation next ||
        isBlank last || isPunctuation last)

def closesEmphasis (sign : Char) (length : Nat) (before behind : Option Char) : Bool :=
  match before, behind with
  | none, _ => false
  | some last, none => !isBlank last
  | some last, some next =>
    !isBlank last &&
      ((sign == '*' || sign == '~' && 1 < length) && !isPunctuation last ||
        sign == '~' && last == '~' || isBlank next || isPunctuation next)

def runAt (sign : Char) (length : Nat) (p : Place) : Run :=
  let behind := (p.rest.drop length).head?
  ⟨sign, length, opensEmphasis sign length p.before behind,
    closesEmphasis sign length p.before behind⟩

/-- Does a run mean anything?  Strikethrough has one or two signs. -/
def Run.counts (r : Run) : Bool := (r.opens || r.closes) && (r.sign != '~' || r.length ≤ 2)

/-! ## Tokens of a line -/

/-- Text that is being read: where it starts and what has been read of it, in reverse. -/
structure PendingText where
  place : Place
  chars : List Char

namespace PendingText

def before (text : PendingText) (tokens : List Token) : List Token :=
  if text.chars.isEmpty then tokens
  else ⟨.text text.chars.reverse, text.place, text.chars.length⟩ :: tokens

def trimmed (text : PendingText) : PendingText :=
  { text with chars := text.chars.dropWhile isInlineSpace }

end PendingText

/-- The sign at a place: its token, if it is one.  A reference to a character is text. -/
def signAt? (p : Place) : Option Token :=
  match p.rest with
  | '\\' :: '\x60' :: rest =>
    let n := 1 + countWhile (· == '\x60') rest
    some ⟨.ticks n true, p.skip 1, n⟩
  | '\x60' :: rest =>
    let n := 1 + countWhile (· == '\x60') rest
    some ⟨.ticks n false, p, n⟩
  | '<' :: rest => if rest.head? == some '\\' then none else some ⟨.angle, p, 1⟩
  | '!' :: '[' :: _ => some ⟨.bracket true, p, 2⟩
  | '[' :: _ => some ⟨.bracket false, p, 1⟩
  | ']' :: _ => some ⟨.closing true, p, 1⟩
  | '&' :: _ => (CharRef.read? p.rest).map fun (n, value) => ⟨.text value, p, n⟩
  | c :: rest =>
    if c = '*' ∨ c = '_' ∨ c = '~' then
      let r := runAt c (1 + countWhile (· == c) rest) p
      if r.counts then some ⟨.run r, p, r.length⟩ else none
    else none
  | [] => none

/-- The number of characters at a place that are plain text together.  A run of signs that
means nothing stays whole. -/
def plainLength : List Char → Nat
  | [] => 0
  | c :: rest => if c = '*' ∨ c = '_' ∨ c = '~' then 1 + countWhile (· == c) rest else 1

def tokensFrom : Nat → PendingText → Place → List Token
  | 0, text, _ => text.before []
  | fuel + 1, text, p =>
    match p.rest with
    | [] => text.trimmed.before []
    | '\n' :: _ => text.trimmed.before []
    | '\r' :: _ => text.trimmed.before []
    | c :: rest =>
      match signAt? p with
      | some t =>
        let p' := p.skip (t.stop - p.pos)
        text.before (t :: tokensFrom fuel ⟨p', []⟩ p')
      | none =>
        match c, rest with
        | '\\', d :: _ =>
          if isAsciiPunctuation d then
            text.before (tokensFrom fuel ⟨p.skip 1, [d]⟩ (p.skip 2))
          else tokensFrom fuel { text with chars := c :: text.chars } (p.skip 1)
        | _, _ =>
          let n := plainLength p.rest
          tokensFrom fuel { text with chars := (p.rest.take n).reverse ++ text.chars } (p.skip n)

def lineTokens (p : Place) : List Token :=
  let p := { p with before := none }
  tokensFrom (p.rest.length + 1) ⟨p, []⟩ p

/-- The token of the line end that follows the line at a place. -/
def breakToken (p : Place) : Token :=
  let n := countWhile (fun c => c != '\n' && c != '\r') p.rest
  ⟨.lineBreak, p.skip n, (lineEnd? (p.rest.drop n)).getD 0⟩

def tokensOfLines : List Place → List Token
  | [] => []
  | [p] => lineTokens p
  | p :: rest => lineTokens p ++ breakToken p :: tokensOfLines rest

end Markdown
end LiveDoc
