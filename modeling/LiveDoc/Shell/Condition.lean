/-
Conditions: what the command `test` reads from its arguments.

A condition is an operand, an operator with one or two operands, or it is made
of conditions by `!`, `-a`, `-o` and parentheses.  Few arguments are read by
their number, so that an operand may look like an operator.
-/
import LiveDoc.Files
import LiveDoc.Shell.Format

namespace LiveDoc
namespace Shell
namespace Condition

/-! ## Operators -/

/-- The place of a word in a condition. -/
inductive Lexeme where
  | stop
  | operand
  /-- An operator in front of its operand. -/
  | unary
  /-- An operator between its operands. -/
  | binary
  | both
  | either
  | not
  | opening
  | closing
deriving Repr, DecidableEq, Inhabited

def unaryOperators : List String :=
  ["-r", "-w", "-x", "-e", "-f", "-d", "-c", "-b", "-p", "-u", "-g", "-k", "-s", "-t", "-z",
   "-n", "-h", "-O", "-G", "-L", "-S"]

def binaryOperators : List String :=
  ["=", "!=", "<", ">", "-eq", "-ne", "-gt", "-ge", "-lt", "-le", "-nt", "-ot", "-ef"]

def lexemeOf (w : Text) : Lexeme :=
  let s := stringOf w
  if s ∈ unaryOperators then .unary
  else if s ∈ binaryOperators then .binary
  else
    match s with
    | "-a" => .both
    | "-o" => .either
    | "!" => .not
    | "(" => .opening
    | ")" => .closing
    | _ => .operand

/-- The place of the first word in front of others.  An operator is an operand if nothing
follows it, or only a binary operator with its operand. -/
def lex : List Text → Lexeme
  | [] => .stop
  | w :: rest =>
    match lexemeOf w with
    | .unary =>
      match rest with
      | [] => .operand
      | [_] => .unary
      | next :: _ => if lexemeOf next = .binary then .operand else .unary
    | .opening => if rest.isEmpty then .operand else .opening
    | other => other

/-! ## Simple conditions -/

def isFile : Option Entry → Bool
  | some (.file _) => true
  | _ => false

def holdsOf (files : Files) (op : String) (a : Text) : Bool :=
  let entry := match files.locate (stringOf a) with
    | .ok p => files.at? p
    | .error _ => none
  match op with
  | "-n" => !a.isEmpty
  | "-z" => a.isEmpty
  | "-f" => isFile entry
  | "-d" => entry == some .directory
  | "-x" => entry == some .directory
  | "-s" => entry.isSome && entry != some (.file [])
  | "-e" => entry.isSome
  | "-r" => entry.isSome
  | "-w" => entry.isSome
  | "-O" => entry.isSome
  | "-G" => entry.isSome
  | _ => false

/-- The number that an operand writes, which blanks may follow. -/
def number (a : Text) : Except String Int :=
  match Format.number ((a.reverse.dropWhile Arithmetic.isSpace).reverse) with
  | (n, true) => .ok n
  | _ => .error ("Illegal number: " ++ stringOf a)

def compared (a b : Text) (holds : Int → Int → Bool) : Except String Bool := do
  let x ← number a
  let y ← number b
  return holds x y

def holdsBetween (op : String) (a b : Text) : Except String Bool :=
  match op with
  | "=" => .ok (a == b)
  | "!=" => .ok (a != b)
  | "<" => .ok (isBefore a b)
  | ">" => .ok (isBefore b a)
  | "-eq" => compared a b (· == ·)
  | "-ne" => compared a b (· != ·)
  | "-lt" => compared a b (· < ·)
  | "-le" => compared a b (· ≤ ·)
  | "-gt" => compared a b (fun x y => y < x)
  | "-ge" => compared a b (fun x y => y ≤ x)
  | _ => .ok false

/-! ## Reading -/

/-- A truth value, and the words from the last one that was used on. -/
abbrev Reading := Except String (Bool × List Text)

/-- The error of an operator without an operand. -/
def argumentExpected (op : Text) : Reading := .error (stringOf op ++ ": argument expected")

/-- Reads an operand, or an operator with its operands, from words that begin with no
parenthesis. -/
def simple (files : Files) : Lexeme → List Text → Reading
  | .stop, ws => .ok (false, ws)
  | .unary, op :: a :: rest => .ok (holdsOf files (stringOf op) a, a :: rest)
  | .unary, [op] => argumentExpected op
  | _, [] => .ok (false, [])
  | _, a :: rest =>
    if lex rest = .binary then
      match rest with
      | op :: b :: rest => do return (← holdsBetween (stringOf op) a b, b :: rest)
      | op :: [] => argumentExpected op
      | [] => .ok (!a.isEmpty, [a])
    else .ok (!a.isEmpty, a :: rest)

mutual

def either (files : Files) : Nat → Lexeme → List Text → Reading
  | 0, _, ws => .ok (false, ws)
  | fuel + 1, first, ws => do
    let (a, ws) ← both files fuel first ws
    if lex (ws.drop 1) = .either then
      let (b, ws) ← either files fuel (lex (ws.drop 2)) (ws.drop 2)
      return (a || b, ws)
    else return (a, ws)

def both (files : Files) : Nat → Lexeme → List Text → Reading
  | 0, _, ws => .ok (false, ws)
  | fuel + 1, first, ws => do
    let (a, ws) ← negated files fuel first ws
    if lex (ws.drop 1) = .both then
      let (b, ws) ← both files fuel (lex (ws.drop 2)) (ws.drop 2)
      return (a && b, ws)
    else return (a, ws)

def negated (files : Files) : Nat → Lexeme → List Text → Reading
  | 0, _, ws => .ok (false, ws)
  | fuel + 1, .not, ws => do
    let next := lex (ws.drop 1)
    let (a, ws) ← negated files fuel next (if next = .stop then ws else ws.drop 1)
    return (!a, ws)
  | fuel + 1, .opening, ws => do
    let next := lex (ws.drop 1)
    if next = .closing then return (false, ws.drop 1)
    else
      let (a, ws) ← either files fuel next (ws.drop 1)
      if lex (ws.drop 1) = .closing then return (a, ws.drop 1)
      else .error "closing paren expected"
  | _ + 1, first, ws => simple files first ws

end

/-- Reads all words as one condition, whose first word has the given place. -/
def whole (files : Files) (first : Lexeme) (ws : List Text) : Except String Bool := do
  let (a, rest) ← either files (4 * ws.length + 4) first ws
  match rest with
  | w :: _ :: _ =>
    .error (if w.isEmpty then "unexpected operator" else stringOf w ++ ": unexpected operator")
  | _ => return a

/-- Reads words by their number.  Exclamation marks in front of three or four words make the
condition the opposite, however many they are. -/
def byNumber (files : Files) (opposite : Bool) : List Text → Except String Bool
  | [] => .ok false
  | [a, op, b] =>
    if lexemeOf op = .binary then answer .operand [a, op, b]
    else if a = ['('] ∧ b = [')'] then answer (lex [op]) [op]
    else if a = ['!'] then byNumber files true [op, b]
    else answer (lex [a, op, b]) [a, op, b]
  | [a, b, c, d] =>
    if a = ['('] ∧ d = [')'] then answer (lex [b, c]) [b, c]
    else if a = ['!'] then byNumber files true [b, c, d]
    else answer (lex [a, b, c, d]) [a, b, c, d]
  | ws => answer (lex ws) ws
where
  /-- The value of all words as one condition, or the opposite. -/
  answer (first : Lexeme) (ws : List Text) : Except String Bool :=
    (whole files first ws).map (· != opposite)

/-- Does the condition hold that the words write? -/
def evaluate (files : Files) (ws : List Text) : Except String Bool := byNumber files false ws

end Condition
end Shell
end LiveDoc
