/-
Escapes and formats in the arguments of printing commands.
-/
import LiveDoc.Shell.Arithmetic

namespace LiveDoc
namespace Shell
namespace Format

def octal : Nat → Nat → Text → Nat × Text
  | 0, n, s => (n, s)
  | _, n, [] => (n, [])
  | k + 1, n, c :: rest =>
    if '0' ≤ c ∧ c ≤ '7' then octal k (n * 8 + (c.toNat - 48)) rest else (n, c :: rest)

def escapeLetter? : Char → Option Char
  | 'a' => some '\x07'
  | 'b' => some '\x08'
  | 'f' => some '\x0c'
  | 'n' => some '\n'
  | 'r' => some '\r'
  | 't' => some '\t'
  | 'v' => some '\x0b'
  | '\\' => some '\\'
  | _ => none

/-- Reads an escape behind its backslash.  The backslash of an unknown one stands for
itself. -/
def escape (s : Text) : Char × Text :=
  match s with
  | [] => ('\\', [])
  | c :: rest =>
    match escapeLetter? c with
    | some d => (d, rest)
    | none =>
      if '0' ≤ c ∧ c ≤ '7' then
        let (n, rest) := octal 3 0 s
        (Char.ofNat (n % 256), rest)
      else ('\\', s)

/-- A text with its escapes resolved, and whether all of it is to be printed. -/
def unescape : Nat → Text → Text × Bool
  | 0, _ => ([], true)
  | _, [] => ([], true)
  | fuel + 1, '\\' :: rest =>
    match rest with
    | 'c' :: _ => ([], false)
    | '0' :: rest =>
      let (n, rest) := octal 3 0 rest
      let (more, all) := unescape fuel rest
      (Char.ofNat (n % 256) :: more, all)
    | rest =>
      let (c, rest) := escape rest
      let (more, all) := unescape fuel rest
      (c :: more, all)
  | fuel + 1, c :: rest =>
    let (more, all) := unescape fuel rest
    (c :: more, all)

/-- What is printed for arguments with blanks between them: without a line end if the first
one is `-n`. -/
def echoed (args : List Text) : Text :=
  let (bare, args) := match args with
    | ['-', 'n'] :: rest => (true, rest)
    | args => (false, args)
  let joined := (args.intersperse [' ']).flatten
  let (text, all) := unescape (joined.length + 1) joined
  if bare || !all then text else text ++ ['\n']

/-! ## Formats -/

structure Conversion where
  left : Bool
  zero : Bool
  plus : Bool
  blank : Bool
  alternative : Bool
  width : Nat
  precision : Option Nat
  kind : Char
deriving Repr, Inhabited

def padded (left zero : Bool) (width : Nat) (sign digits : Text) : Text :=
  let missing := width - (sign.length + digits.length)
  if left then sign ++ digits ++ List.replicate missing ' '
  else if zero then sign ++ List.replicate missing '0' ++ digits
  else List.replicate missing ' ' ++ sign ++ digits

def digitsOf (base : Nat) (upper : Bool) (n : Nat) : Text :=
  let digits := Nat.toDigits base n
  if upper then digits.map Char.toUpper else digits

def number (t : Text) : Int × Bool :=
  match t with
  | '\'' :: c :: _ => (c.toNat, true)
  | '"' :: c :: _ => (c.toNat, true)
  | t =>
    let t := t.dropWhile Arithmetic.isSpace
    let (negative, digits) := match t with
      | '-' :: rest => (true, rest)
      | '+' :: rest => (false, rest)
      | rest => (false, rest)
    let lengths := (List.range (digits.length + 1)).reverse
    match lengths.findSome? fun n => (Arithmetic.unsigned? (digits.take n)).map fun v => (n, v) with
    | some (n, v) => (if negative then -v else v, n == digits.length)
    | none => (0, false)

def convert (c : Conversion) (arg : Text) : Text :=
  let signed (n : Int) : Text :=
    let digits := digitsOf 10 false n.natAbs
    let digits := match c.precision with
      | some p => List.replicate (p - digits.length) '0' ++ digits
      | none => digits
    let sign := if n < 0 then ['-'] else if c.plus then ['+'] else if c.blank then [' '] else []
    padded c.left (c.zero && c.precision.isNone) c.width sign digits
  let unsigned (base : Nat) (upper : Bool) (n : Int) : Text :=
    let digits := digitsOf base upper (Arithmetic.bitsOf n)
    let digits := match c.precision with
      | some p => List.replicate (p - digits.length) '0' ++ digits
      | none => digits
    let lead := if c.alternative && n != 0 then
        (if base = 16 then (if upper then ['0', 'X'] else ['0', 'x'])
         else if base = 8 then ['0'] else [])
      else []
    padded c.left (c.zero && c.precision.isNone) c.width lead digits
  match c.kind with
  | 'd' => signed (number arg).1
  | 'i' => signed (number arg).1
  | 'u' => unsigned 10 false (number arg).1
  | 'x' => unsigned 16 false (number arg).1
  | 'X' => unsigned 16 true (number arg).1
  | 'o' => unsigned 8 false (number arg).1
  | 'c' => padded c.left false c.width [] (arg.take 1)
  | _ =>
    let text := match c.precision with
      | some p => arg.take p
      | none => arg
    padded c.left false c.width [] text

def decimal (s : Text) : Nat × Text :=
  let digits := s.takeWhile Char.isDigit
  (digits.foldl (fun n c => n * 10 + (c.toNat - 48)) 0, s.drop digits.length)

/-- What is printed so far, the arguments that are left, and the messages so far. -/
structure Progress where
  printed : Text
  args : List Text
  messages : List String
  /-- Has a conversion taken an argument? -/
  used : Bool
  stopped : Bool
deriving Inhabited

def Progress.take (p : Progress) : Text × Progress :=
  match p.args with
  | a :: rest => (a, { p with args := rest, used := true })
  | [] => ([], { p with used := true })

/-- Reads a width or a precision, which may be an argument. -/
def size (s : Text) (p : Progress) : Int × Text × Progress :=
  match s with
  | '*' :: rest =>
    let (a, p) := p.take
    ((number a).1, rest, p)
  | s =>
    let (n, rest) := decimal s
    (n, rest, p)

def conversion (s : Text) (p : Progress) : Text × Progress :=
  let flags := s.takeWhile fun c => "#-+ 0".toList.contains c
  let (width, rest, p) := size (s.drop flags.length) p
  let (precision, rest, p) : Option Nat × Text × Progress := match rest with
    | '.' :: rest =>
      let (n, rest, p) := size rest p
      (some n.toNat, rest, p)
    | rest => (none, rest, p)
  match rest with
  | [] => ([], { p with messages := p.messages ++ ["missing format character"], stopped := true })
  | kind :: rest =>
    let c : Conversion :=
      ⟨flags.contains '-' || width < 0, flags.contains '0', flags.contains '+',
       flags.contains ' ', flags.contains '#', width.natAbs, precision, kind⟩
    if kind = 'b' then
      let (arg, p) := p.take
      let (text, all) := unescape (arg.length + 1) arg
      (rest, { p with printed := p.printed ++ convert { c with kind := 's' } text, stopped := !all })
    else if "sc".toList.contains kind then
      let (arg, p) := p.take
      (rest, { p with printed := p.printed ++ convert c arg })
    else if "diuxXo".toList.contains kind then
      let (arg, p) := p.take
      let fine := arg.isEmpty || (number arg).2
      let messages := if fine then [] else [stringOf arg ++ ": expected numeric value"]
      (rest, { p with printed := p.printed ++ convert c arg, messages := p.messages ++ messages })
    else
      let text := stringOf ('%' :: s.take (s.length - rest.length))
      (rest, { p with messages := p.messages ++ [text ++ ": invalid directive"], stopped := true })

def pass : Nat → Text → Progress → Progress
  | 0, _, p => p
  | _, [], p => p
  | fuel + 1, c :: rest, p =>
    if p.stopped then p
    else if c = '\\' then
      let (d, rest) := escape rest
      pass fuel rest { p with printed := p.printed ++ [d] }
    else if c = '%' ∧ rest.head? = some '%' then
      pass fuel (rest.drop 1) { p with printed := p.printed ++ ['%'] }
    else if c = '%' then
      let (rest, p) := conversion rest p
      pass fuel rest p
    else pass fuel rest { p with printed := p.printed ++ [c] }

/-- Goes through a format as often as there are arguments for. -/
def passes (format : Text) : Nat → Progress → Progress
  | 0, p => p
  | fuel + 1, p =>
    let p := pass (format.length + 1) format { p with used := false }
    if p.stopped || !p.used || p.args.isEmpty then p else passes format fuel p

def formatted (format : Text) (args : List Text) : Text × List String :=
  let p := passes format (args.length + 1) ⟨[], args, [], false, false⟩
  (p.printed, p.messages)

end Format
end Shell
end LiveDoc
