/-
HTML character references.

A reference is an ampersand, then a name, or a number sign and a decimal number,
or a number sign, an x and a hexadecimal number, and a semicolon.  A name counts
only if HTML defines it.  A number that is no character, zero included, stands
for U+FFFD.
-/
import LiveDoc.Text.CharClass
import LiveDoc.Text.CharRef.Names

namespace LiveDoc
namespace CharRef

def hexDigit? (c : Char) : Option Nat :=
  if '0' ≤ c ∧ c ≤ '9' then some (c.toNat - '0'.toNat)
  else if 'a' ≤ c ∧ c ≤ 'f' then some (c.toNat - 'a'.toNat + 10)
  else if 'A' ≤ c ∧ c ≤ 'F' then some (c.toNat - 'A'.toNat + 10)
  else none

def digit? (base : Nat) (c : Char) : Option Nat :=
  (hexDigit? c).filter (· < base)

/-- The digits that a text starts with, at most `limit` of them: how many there are
and the number they write. -/
def number (base limit : Nat) (s : List Char) : Nat × Nat :=
  let digits := (s.take limit).takeWhile fun c => (digit? base c).isSome
  (digits.length, digits.foldl (fun n c => n * base + (digit? base c).getD 0) 0)

/-- The character with a given number, U+FFFD when there is none. -/
def charOfNumber (n : Nat) : Char :=
  if n = 0 ∨ ¬ n.isValidChar then '\uFFFD' else Char.ofNat n

def charsOfValue (value : String) : List Char :=
  (value.splitOn "+").map fun point =>
    Char.ofNat (point.toList.foldl (fun n c => n * 16 + (hexDigit? c).getD 0) 0)

def findName (name : String) : List String → Option String
  | key :: value :: rest => if key = name then some value else findName name rest
  | _ => none

def named? (name : List Char) : Option (List Char) :=
  (names.findSome? fun line => findName (String.ofList name) (line.splitOn " ")).map charsOfValue

/-- Reads the reference at the start of a text: the number of characters it takes
and the characters it stands for. -/
def read? : List Char → Option (Nat × List Char)
  | '&' :: '#' :: rest =>
    let (skipped, base, limit, digits) :=
      match rest with
      | 'x' :: r => (3, 16, 6, r)
      | 'X' :: r => (3, 16, 6, r)
      | r => (2, 10, 7, r)
    let (count, value) := number base limit digits
    if count = 0 then none
    else match digits.drop count with
      | ';' :: _ => some (skipped + count + 1, [charOfNumber value])
      | _ => none
  | '&' :: rest =>
    let name := rest.takeWhile Char.isAlphanum
    match rest.drop name.length with
    | ';' :: _ => (named? name).map fun value => (name.length + 2, value)
    | _ => none
  | _ => none

end CharRef

/-- The text with backslash escapes and character references resolved and CR left
out, as in the text behind a code fence. -/
def unescape : List Char → List Char
  | [] => []
  | '\\' :: c :: rest =>
    if isAsciiPunctuation c then c :: unescape rest else '\\' :: unescape (c :: rest)
  | '\r' :: rest => unescape rest
  | c :: rest =>
    match CharRef.read? (c :: rest) with
    | some (n + 1, value) => value ++ unescape (rest.drop n)
    | _ => c :: unescape rest
termination_by s => s.length
decreasing_by all_goals (simp only [List.length_cons, List.length_drop]; omega)

end LiveDoc
