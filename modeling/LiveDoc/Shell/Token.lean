/-
The tokens of shell text.

A shell works on bytes.  Each byte is held as the character of the same number,
so that a text is a list of characters.  A word keeps its quotation marks and
its dollar signs; they are resolved when the word is expanded.
-/
import LiveDoc.Text.Utf8

namespace LiveDoc
namespace Shell

abbrev Text := List Char

def textOfBytes (b : Bytes) : Text := b.map fun x => Char.ofNat x.toNat

def bytesOfText (t : Text) : Bytes := t.map fun c => UInt8.ofNat c.toNat

def textOf (s : String) : Text := textOfBytes (bytesOf s)

/-- The string that a text holds, as far as it is UTF-8. -/
def stringOf (t : Text) : String := String.ofList (Utf8.decodeLossy (bytesOfText t))

/-- Is a text less than another in the order of its bytes? -/
def isBefore : Text → Text → Bool
  | [], [] => false
  | [], _ :: _ => true
  | _ :: _, [] => false
  | a :: s, b :: t => a < b || (a == b && isBefore s t)

inductive Token where
  | word (raw : Text)
  | operator (op : String)
  /-- A number directly in front of a redirection. -/
  | descriptor (n : Nat)
  /-- The place of a text that follows on the next lines, by its number. -/
  | textBelow (n : Nat)
  | newline
deriving Repr, DecidableEq, Inhabited

structure TextBelow where
  number : Nat
  delimiter : Text
  quoted : Bool
  /-- Are tabs at the start of lines dropped? -/
  stripped : Bool
  body : Text
deriving Repr, DecidableEq, Inhabited

/-! ## Words -/

inductive Closer where
  | single
  | double
  | backquote
  | paren
  | secondParen
  | brace
deriving Repr, DecidableEq, Inhabited

inductive Unclosed where
  | quotation
  | backquote
  | command
  | arithmetic
  | brace
deriving Repr, DecidableEq, Inhabited

/-- What a text ends inside of when it ends in front of some closers. -/
def Unclosed.ofClosers : List Closer → Unclosed
  | .backquote :: _ => .backquote
  | .paren :: outer => if outer.dropWhile (· == .paren) |>.head? |> (· == some .secondParen)
    then .arithmetic else .command
  | .secondParen :: _ => .arithmetic
  | .brace :: outer =>
    match outer.dropWhile (· == .brace) with
    | .double :: _ => .quotation
    | .secondParen :: _ => .arithmetic
    | .paren :: .secondParen :: _ => .arithmetic
    | _ => .brace
  | _ => .quotation

def endsWord (c : Char) : Bool :=
  c == ' ' || c == '\t' || c == '\n' || c == ';' || c == '&' || c == '|' || c == '<' || c == '>'
    || c == '(' || c == ')'

/-- Reads the raw text of a word up to where it ends, inside the given quotations.  A word
that ends before its quotations do is incomplete. -/
def scan : List Closer → Text → Except Unclosed (Text × Text)
  | [], [] => .ok ([], [])
  | c :: outer, [] => .error (.ofClosers (c :: outer))
  | stack, c :: rest =>
    let keep (r : Except Unclosed (Text × Text)) := r.map fun (w, s) => (c :: w, s)
    match stack with
    | [] =>
      if endsWord c then .ok ([], c :: rest)
      else if c = '\\' then
        match rest with
        | '\n' :: rest => scan [] rest
        | d :: rest => (scan [] rest).map fun (w, s) => (c :: d :: w, s)
        | [] => .ok ([c], [])
      else if c = '\'' then keep (scan [.single] rest)
      else if c = '"' then keep (scan [.double] rest)
      else if c = '\x60' then keep (scan [.backquote] rest)
      else if c = '$' then
        match rest with
        | '(' :: '(' :: rest =>
          (scan [.paren, .secondParen] rest).map fun (w, s) => (c :: '(' :: '(' :: w, s)
        | '(' :: rest => (scan [.paren] rest).map fun (w, s) => (c :: '(' :: w, s)
        | '\x7b' :: rest => (scan [.brace] rest).map fun (w, s) => (c :: '\x7b' :: w, s)
        | rest => (scan [] rest).map fun (w, s) => (c :: w, s)
      else keep (scan [] rest)
    | .single :: outer => keep (scan (if c = '\'' then outer else stack) rest)
    | .backquote :: outer =>
      if c = '\\' then
        match rest with
        | d :: rest => (scan stack rest).map fun (w, s) => (c :: d :: w, s)
        | [] => .error .backquote
      else keep (scan (if c = '\x60' then outer else stack) rest)
    | closer :: outer =>
      if c = '\\' then
        match rest with
        | d :: rest => (scan stack rest).map fun (w, s) => (c :: d :: w, s)
        | [] => .error (.ofClosers stack)
      else if c = '"' then
        keep (scan (if closer = .double then outer else .double :: stack) rest)
      else if c = '\'' ∧ closer ≠ .double then keep (scan (.single :: stack) rest)
      else if c = '\x60' then keep (scan (.backquote :: stack) rest)
      else if c = '$' then
        match rest with
        | '(' :: '(' :: rest =>
          (scan (.paren :: .secondParen :: stack) rest).map fun (w, s) =>
            (c :: '(' :: '(' :: w, s)
        | '(' :: rest => (scan (.paren :: stack) rest).map fun (w, s) => (c :: '(' :: w, s)
        | '\x7b' :: rest => (scan (.brace :: stack) rest).map fun (w, s) => (c :: '\x7b' :: w, s)
        | rest => (scan stack rest).map fun (w, s) => (c :: w, s)
      else if closer = .paren ∨ closer = .secondParen then
        keep (scan (if c = '(' then .paren :: stack else if c = ')' then outer else stack) rest)
      else if c = '\x7d' ∧ closer = .brace then keep (scan outer rest)
      else keep (scan stack rest)

def unquote : Text → Text
  | [] => []
  | '\\' :: c :: rest => c :: unquote rest
  | c :: rest => if c = '\'' ∨ c = '"' ∨ c = '\\' then unquote rest else c :: unquote rest

def isQuoted (raw : Text) : Bool := raw.any fun c => c == '\'' || c == '"' || c == '\\'

/-! ## Tokens -/

def operators : List String :=
  ["<<-", "&&", "||", ";;", "<<", ">>", "<&", ">&", "<>", ">|", ";", "&", "|", "(", ")", "<", ">"]

def operator? (s : Text) : Option (String × Text) :=
  (operators.find? fun op => op.toList.isPrefixOf s).map fun op => (op, s.drop op.length)

/-- Reads lines up to the delimiter: the lines, and the rest. -/
def linesUpTo (delimiter : Text) (stripped : Bool) : Nat → Text → Text × Text
  | 0, s => ([], s)
  | fuel + 1, s =>
    if s.isEmpty then ([], [])
    else
      let line := s.takeWhile (· != '\n')
      let rest := s.drop (line.length + 1)
      let line := if stripped then line.dropWhile (· == '\t') else line
      if line = delimiter then ([], rest)
      else
        let (body, rest) := linesUpTo delimiter stripped fuel rest
        (line ++ '\n' :: body, rest)

structure Lexer where
  rest : Text
  line : Nat
  /-- The tokens read so far with their lines, the latest first. -/
  tokens : List (Nat × Token)
  /-- The texts that the lines below will give. -/
  awaited : List TextBelow
  given : List TextBelow
  /-- What the text ends inside of, if anything. -/
  unclosed : Option Unclosed
deriving Inhabited

namespace Lexer

def push (l : Lexer) (t : Token) (rest : Text) : Lexer :=
  { l with tokens := (l.line, t) :: l.tokens, rest := rest }

def readTexts (l : Lexer) : Lexer :=
  l.awaited.foldl
    (fun l t =>
      let (body, rest) := linesUpTo t.delimiter t.stripped (l.rest.length + 1) l.rest
      { l with given := l.given ++ [{ t with body := body }], rest := rest,
               line := l.line + body.count '\n' + 1 })
    { l with awaited := [] }

/-- Reads a redirection to a text on the lines below.  Without a delimiter it is only an
operator. -/
def awaitText (l : Lexer) (stripped : Bool) (rest : Text) : Lexer :=
  let rest := rest.dropWhile fun c => c == ' ' || c == '\t'
  match scan [] rest with
  | .error u => { l with unclosed := some u, rest := [] }
  | .ok ([], rest) => l.push (.operator "<<") rest
  | .ok (raw, rest) =>
    let n := l.given.length + l.awaited.length
    let t : TextBelow := ⟨n, unquote raw, isQuoted raw, stripped, []⟩
    { l.push (.textBelow n) rest with awaited := l.awaited ++ [t] }

/-- Reads one token, or blanks between tokens. -/
def step (l : Lexer) : Lexer :=
  match l.rest with
  | [] => l
  | c :: rest =>
    if c = ' ' ∨ c = '\t' then { l with rest := rest }
    else if c = '\n' then
      let l := l.push .newline rest
      { l with line := l.line + 1 }.readTexts
    else if c = '#' then { l with rest := l.rest.dropWhile (· != '\n') }
    else if c = '\\' ∧ rest.head? = some '\n' then
      { l with rest := rest.drop 1, line := l.line + 1 }
    else
      match operator? l.rest with
      | some (op, rest) =>
        if op = "<<" then l.awaitText false rest
        else if op = "<<-" then l.awaitText true rest
        else l.push (.operator op) rest
      | none =>
        match scan [] l.rest with
        | .error u => { l with unclosed := some u, rest := [] }
        | .ok (raw, rest) =>
          let number := raw.all Char.isDigit && (rest.head? == some '<' || rest.head? == some '>')
          let token :=
            if number then .descriptor (raw.foldl (fun n c => n * 10 + (c.toNat - 48)) 0)
            else .word raw
          { l.push token rest with line := l.line + raw.count '\n' }

def run : Nat → Lexer → Lexer
  | 0, l => l
  | fuel + 1, l => if l.rest.isEmpty then l else run fuel l.step

end Lexer

/-- All tokens of a text with their lines, the texts below its commands, and what the text
ends inside of. -/
def tokenize (s : Text) : List (Nat × Token) × List TextBelow × Option Unclosed :=
  let l := Lexer.run (s.length + 1) ⟨s, 1, [], [], [], none⟩
  let l := l.readTexts
  (l.tokens.reverse, l.given, l.unclosed)

end Shell
end LiveDoc
