/-
Arithmetic of the shell, on numbers of 64 bits with a sign.
-/
import LiveDoc.Shell.Parser

namespace LiveDoc
namespace Shell

inductive ArithmeticFault where
  | expectingPrimary
  | expectingEnd
  | expectingParen
  | expectingColon
  | divisionByZero
  | illegalNumber (text : Text)
deriving Repr, DecidableEq, Inhabited

def ArithmeticFault.message (expression : String) (e : ArithmeticFault) : String :=
  let about (what : String) : String :=
    "arithmetic expression: " ++ what ++ ": \"" ++ expression ++ "\""
  match e with
  | .expectingPrimary => about "expecting primary"
  | .expectingEnd => about "expecting EOF"
  | .expectingParen => about "expecting ')'"
  | .expectingColon => about "expecting ':'"
  | .divisionByZero => about "division by zero"
  | .illegalNumber text => "Illegal number: " ++ stringOf text

namespace Arithmetic

/-- A number cut to 64 bits. -/
def wrap (n : Int) : Int := Int.bmod n (Nat.pow 2 64)

/-- The number that digits of a base write, none if there is another character. -/
def ofDigits? (base : Nat) (digits : Text) : Option Int :=
  let value (c : Char) : Option Nat :=
    let v :=
      if c.isDigit then c.toNat - 48
      else if 'a' ≤ c ∧ c ≤ 'f' then c.toNat - 87
      else if 'A' ≤ c ∧ c ≤ 'F' then c.toNat - 55
      else base
    if v < base then some v else none
  if digits.isEmpty then none
  else (digits.foldlM (fun n c => (value c).map fun v => n * base + v) 0).map Int.ofNat

def unsigned? : Text → Option Int
  | '0' :: 'x' :: digits => ofDigits? 16 digits
  | '0' :: 'X' :: digits => ofDigits? 16 digits
  | '0' :: d :: digits => ofDigits? 8 (d :: digits)
  | digits => ofDigits? 10 digits

def isSpace (c : Char) : Bool := c == ' ' || c == '\t' || c == '\n'

def valueOf (s : Text) : Except ArithmeticFault Int :=
  let trimmed := s.dropWhile isSpace
  let trimmed := (trimmed.reverse.dropWhile isSpace).reverse
  match trimmed with
  | [] => .ok 0
  | '-' :: digits =>
    match unsigned? digits with
    | some n => .ok (wrap (-n))
    | none => .error (.illegalNumber s)
  | '+' :: digits =>
    match unsigned? digits with
    | some n => .ok (wrap n)
    | none => .error (.illegalNumber s)
  | digits =>
    match unsigned? digits with
    | some n => .ok (wrap n)
    | none => .error (.illegalNumber s)

/-- The number that a text starts with, and the rest.  It goes on as long as there are digits
of its base. -/
def leading? (s : Text) : Option (Int × Text) :=
  let isHex (c : Char) : Bool := c.isDigit || ('a' ≤ c && c ≤ 'f') || ('A' ≤ c && c ≤ 'F')
  let (first, digits) : Text × Text := match s with
    | '0' :: 'x' :: rest => (['0', 'x'], rest.takeWhile isHex)
    | '0' :: 'X' :: rest => (['0', 'X'], rest.takeWhile isHex)
    | '0' :: rest => (['0'], rest.takeWhile fun c => '0' ≤ c && c ≤ '7')
    | s => ([], s.takeWhile Char.isDigit)
  let first := if digits.isEmpty then first.take 1 else first
  let token := first ++ digits
  (unsigned? token).map fun n => (min n (Nat.pow 2 63 - 1 : Nat), s.drop token.length)

/-- The state of an evaluation: the text that is left, the variables set so far, and whether
the value of what is read counts. -/
structure State where
  rest : Text
  set : List (Text × Int)
  counts : Bool
deriving Inhabited

abbrev Eval := StateT State (Except ArithmeticFault)

def skipSpace : Eval Unit := modify fun s => { s with rest := s.rest.dropWhile isSpace }

/-- The binary operators, each with how tightly it binds; longer ones come first. -/
def binaryOperators : List (String × Nat) :=
  [("<<", 8), (">>", 8), ("<=", 7), (">=", 7), ("==", 6), ("!=", 6), ("&&", 2), ("||", 1),
   ("*", 10), ("/", 10), ("%", 10), ("+", 9), ("-", 9), ("<", 7), (">", 7), ("&", 5), ("^", 4),
   ("|", 3)]

def truth (b : Bool) : Int := if b then 1 else 0

def bitsOf (n : Int) : Nat := (n % (Nat.pow 2 64 : Nat)).toNat

def apply (op : String) (a b : Int) : Except ArithmeticFault Int :=
  match op with
  | "*" => .ok (wrap (a * b))
  | "/" => if b = 0 then .error .divisionByZero else .ok (wrap (a.tdiv b))
  | "%" => if b = 0 then .error .divisionByZero else .ok (wrap (a.tmod b))
  | "+" => .ok (wrap (a + b))
  | "-" => .ok (wrap (a - b))
  | "<<" => .ok (wrap (a * (Nat.pow 2 (bitsOf b % 64) : Nat)))
  | ">>" => .ok (a / (Nat.pow 2 (bitsOf b % 64) : Nat))
  | "<" => .ok (truth (a < b))
  | ">" => .ok (truth (b < a))
  | "<=" => .ok (truth (a ≤ b))
  | ">=" => .ok (truth (b ≤ a))
  | "==" => .ok (truth (a = b))
  | "!=" => .ok (truth (a ≠ b))
  | "&" => .ok (wrap (bitsOf a &&& bitsOf b : Nat))
  | "^" => .ok (wrap (bitsOf a ^^^ bitsOf b : Nat))
  | "|" => .ok (wrap (bitsOf a ||| bitsOf b : Nat))
  | "&&" => .ok (truth (a ≠ 0 && b ≠ 0))
  | "||" => .ok (truth (a ≠ 0 || b ≠ 0))
  | _ => .error .expectingPrimary

/-- The binary operator that comes next, with how tightly it binds.  An equals sign behind
one makes it an assignment. -/
def nextOperator (rest : Text) : Option (String × Nat) :=
  match binaryOperators.find? fun op => op.1.toList.isPrefixOf rest with
  | some op =>
    let behind := rest.drop op.1.length
    let assigns := behind.head? == some '=' && behind[1]? != some '=' &&
      !(op.1 ∈ ["<=", ">=", "==", "!=", "<", ">"])
    if assigns then none else some op
  | none => none

/-- The assignment that comes next: the operator applied first, if there is one, and the
text behind the equals sign. -/
def nextAssignment (rest : Text) : Option (Option String × Text) :=
  match rest with
  | '=' :: '=' :: _ => none
  | '=' :: rest => some (none, rest)
  | rest =>
    match ["<<", ">>", "*", "/", "%", "+", "-", "&", "^", "|"].find?
        fun op => op.toList.isPrefixOf rest && rest[op.length]? == some '=' with
    | some op => some (some op, rest.drop (op.length + 1))
    | none => none

def held (look : Text → Text) (name : Text) : Eval Int := do
  let s ← get
  if !s.counts then return 0
  match s.set.lookup name with
  | some n => return n
  | none => valueOf (look name)

/-- Applies a binary operator if the value counts. -/
def applied (op : String) (a b : Int) : Eval Int := do
  if (← get).counts then apply op a b else return b

/-- Evaluates a part whose value counts only if a condition holds. -/
def onlyIf (condition : Bool) (part : Eval Int) : Eval Int := do
  let before := (← get).counts
  modify fun s => { s with counts := before && condition }
  let value ← part
  modify fun s => { s with counts := before }
  return value

/-- Does the right operand count, behind the value of the left one? -/
def needsRight (op : String) (left : Int) : Bool :=
  match op with
  | "&&" => left ≠ 0
  | "||" => left = 0
  | _ => true

mutual

def expression (look : Text → Text) : Nat → Eval Int
  | 0 => throw .expectingPrimary
  | fuel + 1 => do
    skipSpace
    let name := (← get).rest.takeWhile Reader.isNameChar
    let behind := ((← get).rest.drop name.length).dropWhile isSpace
    match Reader.isName name, nextAssignment behind with
    | true, some (op, rest) =>
      modify fun s => { s with rest := rest }
      let value ← expression look fuel
      let value ← match op with
        | none => pure value
        | some op => do
          let old ← held look name
          applied op old value
      modify fun s => if s.counts then { s with set := (name, value) :: s.set } else s
      return value
    | _, _ =>
      let condition ← operand look fuel 1
      skipSpace
      match (← get).rest with
      | '?' :: rest =>
        modify fun s => { s with rest := rest }
        let yes ← onlyIf (condition ≠ 0) (expression look fuel)
        skipSpace
        match (← get).rest with
        | ':' :: rest =>
          modify fun s => { s with rest := rest }
          let no ← onlyIf (condition = 0) (expression look fuel)
          return if condition ≠ 0 then yes else no
        | _ => throw .expectingColon
      | _ => return condition

def operand (look : Text → Text) : Nat → Nat → Eval Int
  | 0, _ => throw .expectingPrimary
  | fuel + 1, level => do
    let first ← primary look fuel
    operators look fuel level first

/-- Evaluates what is joined to a value by operators that bind at least so tightly. -/
def operators (look : Text → Text) : Nat → Nat → Int → Eval Int
  | 0, _, _ => throw .expectingPrimary
  | fuel + 1, level, value => do
    skipSpace
    match nextOperator (← get).rest with
    | some (op, binds) =>
      if binds < level then return value
      else
        modify fun s => { s with rest := s.rest.drop op.length }
        let right ← onlyIf (needsRight op value) (operand look fuel (binds + 1))
        operators look fuel level (← applied op value right)
    | none => return value

def primary (look : Text → Text) : Nat → Eval Int
  | 0 => throw .expectingPrimary
  | fuel + 1 => do
    skipSpace
    match (← get).rest with
    | '(' :: rest =>
      modify fun s => { s with rest := rest }
      let value ← expression look fuel
      skipSpace
      match (← get).rest with
      | ')' :: rest =>
        modify fun s => { s with rest := rest }
        return value
      | _ => throw .expectingParen
    | '-' :: rest =>
      modify fun s => { s with rest := rest }
      return wrap (-(← primary look fuel))
    | '+' :: rest =>
      modify fun s => { s with rest := rest }
      primary look fuel
    | '!' :: rest =>
      modify fun s => { s with rest := rest }
      return truth ((← primary look fuel) = 0)
    | '~' :: rest =>
      modify fun s => { s with rest := rest }
      return wrap (-(← primary look fuel) - 1)
    | rest =>
      let name := rest.takeWhile Reader.isNameChar
      if Reader.isName name then
        modify fun s => { s with rest := rest.drop name.length }
        held look name
      else
        match leading? rest with
        | some (n, rest) =>
          modify fun s => { s with rest := rest }
          return n
        | none => throw .expectingPrimary

end

/-- The value of an expression, and the variables that it sets, the last first. -/
def evaluate (look : Text → Text) (s : Text) :
    Except ArithmeticFault (Int × List (Text × Int)) := do
  let (value, state) ← (expression look (4 * s.length + 10)).run ⟨s, [], true⟩
  if state.rest.all isSpace then .ok (value, state.set) else .error .expectingEnd

end Arithmetic
end Shell
end LiveDoc
