/-
Addresses in angle brackets, which are links to themselves.
-/
namespace LiveDoc
namespace Markdown

def isSchemeChar (c : Char) : Bool := c.isAlphanum || c == '.' || c == '-' || c == '+'

/-- The absolute URI that a text starts with and a right angle bracket ends: its number of
characters, the bracket included.  Its scheme has two to 32 characters. -/
def uri? (s : List Char) : Option Nat :=
  let scheme := s.takeWhile isSchemeChar
  match s.head?, s.drop scheme.length with
  | some first, ':' :: rest =>
    let path := rest.takeWhile fun c => !(c ≤ ' ' || c == '<' || c == '>')
    if first.isAlpha && 2 ≤ scheme.length && scheme.length ≤ 32 &&
        (rest.drop path.length).head? == some '>' then
      some (scheme.length + path.length + 2)
    else none
  | _, _ => none

def isLocalChar (c : Char) : Bool :=
  c.isAlphanum || ".!#$%&'*+/=?^_\x60\x7b|\x7d~-".contains c

def maxDomainLabel : Nat := 63

/-- The domain that a text starts with: its number of characters.  `fuel` bounds the number
of labels. -/
def domain? : Nat → List Char → Option Nat
  | 0, _ => none
  | fuel + 1, s =>
    let label := s.takeWhile fun c => c.isAlphanum || c == '-'
    if label.isEmpty || maxDomainLabel < label.length || label.head? == some '-' ||
        label.getLast? == some '-' then
      none
    else
      match s.drop label.length with
      | '.' :: rest => (domain? fuel rest).map (label.length + 1 + ·)
      | _ => some label.length

/-- The e-mail address that a text starts with and a right angle bracket ends: its number
of characters, the bracket included. -/
def email? (s : List Char) : Option Nat :=
  let name := s.takeWhile isLocalChar
  match s.drop name.length with
  | '@' :: rest =>
    if name.isEmpty then none
    else do
      let n ← domain? (rest.length + 1) rest
      if (rest.drop n).head? == some '>' then some (name.length + n + 2) else none
  | _ => none

/-- The address behind a left angle bracket: its number of characters up to and including
the right one. -/
def autolink? (s : List Char) : Option Nat := uri? s <|> email? s

end Markdown
end LiveDoc
