/-
Reading commands from tokens.
-/
import LiveDoc.Shell.Command

namespace LiveDoc
namespace Shell

/-- Why a text is not a command.  Each comes with the line it was noticed on. -/
inductive SyntaxFault where
  /-- The text ends inside of something. -/
  | unclosed (line : Nat) (inside : Unclosed)
  | endOfText (line : Nat) (expected : Option String)
  | unexpected (line : Nat) (found : String) (expected : Option String)
  | loopVariable (line : Nat)
  | functionName (line : Nat)
deriving Repr, DecidableEq, Inhabited

namespace SyntaxFault

def isIncomplete : SyntaxFault → Bool
  | .unclosed .. => true
  | .endOfText .. => true
  | _ => false

def line : SyntaxFault → Nat
  | .unclosed n _ => n
  | .endOfText n _ => n
  | .unexpected n _ _ => n
  | .loopVariable n => n
  | .functionName n => n

def expecting : Option String → String
  | some what => " (expecting " ++ what ++ ")"
  | none => ""

def reason : SyntaxFault → String
  | .unclosed _ .quotation => "Unterminated quoted string"
  | .unclosed _ .backquote => "EOF in backquote substitution"
  | .unclosed _ .command => "end of file unexpected" ++ expecting (some "\")\"")
  | .unclosed _ .arithmetic => "Missing '))'"
  | .unclosed _ .brace => "Missing '\x7d'"
  | .endOfText _ expected => "end of file unexpected" ++ expecting expected
  | .unexpected _ found expected => found ++ " unexpected" ++ expecting expected
  | .loopVariable _ => "Bad for loop variable"
  | .functionName _ => "Bad function name"

def message (e : SyntaxFault) : String := "Syntax error: " ++ e.reason

end SyntaxFault

structure Unread where
  tokens : List (Nat × Token)
  texts : List TextBelow
  /-- What the text ends inside of, if anything. -/
  unclosed : Option Unclosed
  line : Nat
deriving Inhabited

abbrev Reader := StateT Unread (Except SyntaxFault)

/-- The words that have a meaning of their own where a command may start. -/
def reserved : List String :=
  ["if", "then", "else", "elif", "fi", "do", "done", "case", "esac", "while", "until", "for",
   "\x7b", "\x7d", "!", "in"]

/-- The reserved words and operators that end a list of commands. -/
def closing : List String :=
  ["then", "else", "elif", "fi", "do", "done", "esac", "\x7d", ")", ";;"]

namespace Reader

def peek : Reader (Option Token) := do return (← get).tokens.head?.map Prod.snd

def advance : Reader Unit :=
  modify fun u =>
    match u.tokens with
    | [] => u
    | (line, _) :: rest => { u with tokens := rest, line := line }

def nameOf : Token → String
  | .word raw =>
    let w := stringOf raw
    if w ∈ reserved then "\"" ++ w ++ "\"" else "word"
  | .operator op => if op ∈ ["<", ">", ">>", "<<", "<&", ">&", "<>", ">|"] then "redirection"
    else "\"" ++ op ++ "\""
  | .descriptor _ => "redirection"
  | .textBelow _ => "redirection"
  | .newline => "newline"

def giveUp {α : Type} (expected : Option String) : Reader α := do
  let u ← get
  match u.tokens with
  | (line, t) :: _ => throw (.unexpected line (nameOf t) expected)
  | [] =>
    match u.unclosed with
    | some inside => throw (.unclosed u.line inside)
    | none => throw (.endOfText u.line expected)

def isNext (text : String) : Reader Bool := do
  match ← peek with
  | some (.word raw) => return raw == textOf text
  | some (.operator op) => return op == text
  | _ => return false

def expect (text : String) : Reader Unit := do
  if ← isNext text then advance else giveUp (some ("\"" ++ text ++ "\""))

/-- Passes over a closing parenthesis that has to come where no word is reserved. -/
def expectParen : Reader Unit := do
  match ← peek with
  | some (.operator ")") => advance
  | some (.word _) =>
    throw (.unexpected (((← get).tokens.head?.map Prod.fst).getD 0) "word" (some "\")\""))
  | _ => giveUp (some "\")\"")

def skipNewlines : Nat → Reader Unit
  | 0 => return
  | fuel + 1 => do
    match ← peek with
    | some .newline => advance; skipNewlines fuel
    | _ => return

def skipLines : Reader Unit := do skipNewlines ((← get).tokens.length + 1)

def atEnd : Reader Bool := do
  match ← peek with
  | none => return true
  | some (.word raw) => return (stringOf raw) ∈ closing
  | some (.operator op) => return op ∈ closing
  | _ => return false

/-! ## Simple commands -/

def isNameChar (c : Char) : Bool := c.isAlphanum || c == '_'

def isName (s : Text) : Bool :=
  match s with
  | c :: rest => (c.isAlpha || c == '_') && rest.all isNameChar
  | [] => false

def assignment? (raw : Text) : Option (Text × Text) :=
  let name := raw.takeWhile isNameChar
  if isName name && raw[name.length]? == some '=' then some (name, raw.drop (name.length + 1))
  else none

def word : Reader Text := do
  match ← peek with
  | some (.word raw) => advance; return raw
  | _ => giveUp none

def redirect? : Reader (Option Redirect) := do
  let number ← match ← peek with
    | some (.descriptor n) => advance; pure (some n)
    | _ => pure none
  match ← peek with
  | some (.textBelow n) =>
    advance
    match (← get).texts.find? (·.number == n) with
    | some t => return some ⟨number.getD 0, .readText t⟩
    | none => giveUp none
  | some (.operator op) =>
    match op with
    | "<" => advance; return some ⟨number.getD 0, .readFrom (← word)⟩
    | "<>" => advance; return some ⟨number.getD 0, .readFrom (← word)⟩
    | ">" => advance; return some ⟨number.getD 1, .writeTo (← word)⟩
    | ">|" => advance; return some ⟨number.getD 1, .writeTo (← word)⟩
    | ">>" => advance; return some ⟨number.getD 1, .appendTo (← word)⟩
    | "<&" => advance; return some ⟨number.getD 0, .sameAs (← word)⟩
    | ">&" => advance; return some ⟨number.getD 1, .sameAs (← word)⟩
    | "<<" => advance; giveUp none
    | _ => return none
  | _ => return none

def redirects : Nat → Reader (List Redirect)
  | 0 => return []
  | fuel + 1 => do
    match ← redirect? with
    | some r => return r :: (← redirects fuel)
    | none => return []

def simple (line : Nat) : Nat → List (Text × Text) → List Text → List Redirect → Reader Command
  | 0, _, _, _ => giveUp none
  | fuel + 1, assignments, words, rs => do
    match ← redirect? with
    | some r => simple line fuel assignments words (rs ++ [r])
    | none =>
      match ← peek with
      | some (.word raw) =>
        match assignment? raw, words with
        | some a, [] => advance; simple line fuel (assignments ++ [a]) words rs
        | _, _ => advance; simple line fuel assignments (words ++ [raw]) rs
      | _ =>
        if assignments.isEmpty && words.isEmpty && rs.isEmpty then giveUp none
        else return .simple line assignments words rs

def words : Nat → Reader (List Text)
  | 0 => return []
  | fuel + 1 => do
    match ← peek with
    | some (.word raw) => advance; return raw :: (← words fuel)
    | _ => return []

/-- Reads the patterns of an arm, up to the parenthesis behind them.  Whatever stands where
a pattern has to be is noticed only by what follows it. -/
def patterns : Nat → Reader (List Text)
  | 0 => giveUp none
  | fuel + 1 => do
    let p := match ← peek with
      | some (.word raw) => raw
      | _ => []
    advance
    if ← isNext "|" then
      advance
      return p :: (← patterns fuel)
    else
      expectParen
      return [p]

/-! ## Compound commands -/

mutual

/-- Reads commands up to where a list ends.  A list that must not be empty starts with a
command. -/
def list (mayBeEmpty : Bool) : Nat → Reader Command
  | 0 => giveUp none
  | fuel + 1 => do
    skipLines
    if (← peek).isNone || (mayBeEmpty && (← atEnd)) then return .nothing
    let c ← andOr fuel
    match ← peek with
    | some .newline => advance; return .sequence c (← list true fuel)
    | some (.operator ";") => advance; return .sequence c (← list true fuel)
    | some (.operator "&") => advance; return .sequence (.background c) (← list true fuel)
    | _ => return c

def andOr : Nat → Reader Command
  | 0 => giveUp none
  | fuel + 1 => do
    let c ← pipeline fuel
    andOrRest fuel c

def andOrRest : Nat → Command → Reader Command
  | 0, _ => giveUp none
  | fuel + 1, c => do
    if ← isNext "&&" then
      advance
      skipLines
      andOrRest fuel (.both c (← pipeline fuel))
    else if ← isNext "||" then
      advance
      skipLines
      andOrRest fuel (.either c (← pipeline fuel))
    else return c

def pipeline : Nat → Reader Command
  | 0 => giveUp none
  | fuel + 1 => do
    if ← isNext "!" then
      advance
      return .negated (← piped fuel)
    else piped fuel

def piped : Nat → Reader Command
  | 0 => giveUp none
  | fuel + 1 => do
    let c ← command fuel
    if ← isNext "|" then
      advance
      skipLines
      return .pipe c (← piped fuel)
    else return c

def command : Nat → Reader Command
  | 0 => giveUp none
  | fuel + 1 => do
    let u ← get
    let line := (u.tokens.head?.map Prod.fst).getD u.line
    match ← peek with
    | some (.operator "(") =>
      advance
      let c ← list false fuel
      expect ")"
      redirected (.subshell c)
    | some (.word raw) =>
      match stringOf raw with
      | "\x7b" =>
        advance
        let c ← list false fuel
        expect "\x7d"
        redirected c
      | "if" => advance; redirected (← ifRest fuel)
      | "while" => advance; redirected (← loopRest true fuel)
      | "until" => advance; redirected (← loopRest false fuel)
      | "for" => advance; redirected (← forRest fuel)
      | "case" =>
        advance
        let subject ← match ← peek with
          | some (.word raw) => advance; pure raw
          | _ => giveUp (some "word")
        skipLines
        expect "in"
        let arms ← armsRest fuel
        redirected (.select subject arms)
      | name =>
        if name ∈ closing ∨ name ∈ ["!", "in"] then giveUp none
        else
          match u.tokens with
          | _ :: (_, .operator "(") :: _ =>
            advance
            advance
            expectParen
            if !isName raw then throw (.functionName line)
            skipLines
            return .function raw (← command fuel)
          | _ => simple line (u.tokens.length + 1) [] [] []
    | none => giveUp none
    | _ => simple line (u.tokens.length + 1) [] [] []
where
  /-- The command with the redirections that come next. -/
  redirected (c : Command) : Reader Command := do
    let rs ← redirects ((← get).tokens.length + 1)
    return if rs.isEmpty then c else .redirected c rs

def ifRest : Nat → Reader Command
  | 0 => giveUp none
  | fuel + 1 => do
    let condition ← list false fuel
    expect "then"
    let yes ← list false fuel
    if ← isNext "elif" then
      advance
      return .choice condition yes (← ifRest fuel)
    else if ← isNext "else" then
      advance
      let no ← list false fuel
      expect "fi"
      return .choice condition yes no
    else
      expect "fi"
      return .choice condition yes .nothing

def loopRest (whileTrue : Bool) : Nat → Reader Command
  | 0 => giveUp none
  | fuel + 1 => do
    let condition ← list false fuel
    expect "do"
    let body ← list false fuel
    expect "done"
    return .loop whileTrue condition body

def forRest : Nat → Reader Command
  | 0 => giveUp none
  | fuel + 1 => do
    let name ← match ← peek with
      | some (.word raw) =>
        if isName raw then advance; pure raw else throw (.loopVariable (← get).line)
      | _ => throw (.loopVariable (← get).line)
    skipLines
    let given ← if ← isNext "in" then do
        advance
        let ws ← words ((← get).tokens.length + 1)
        match ← peek with
        | some .newline => pure ()
        | some (.operator ";") => advance
        | _ => giveUp none
        pure (some ws)
      else do
        if ← isNext ";" then advance
        pure none
    skipLines
    expect "do"
    let body ← list false fuel
    expect "done"
    return .each name given body

def armsRest : Nat → Reader (List (List Text × Command))
  | 0 => giveUp none
  | fuel + 1 => do
    skipLines
    if ← isNext "esac" then
      advance
      return []
    if ← isNext "(" then advance
    let ps ← patterns ((← get).tokens.length + 1)
    let body ← list true fuel
    if ← isNext "esac" then
      advance
      return [(ps, body)]
    else
      expect ";;"
      return (ps, body) :: (← armsRest fuel)

end

/-- Reads the commands of one line, which may go on over several: `none` at the end. -/
def line : Reader (Option Command) := do
  skipLines
  if (← peek).isNone then
    if (← get).unclosed.isSome then giveUp none else return none
  else
    return some (← commands ((← get).tokens.length + 1))
where
  commands : Nat → Reader Command
    | 0 => giveUp none
    | fuel + 1 => do
      let c ← andOr (8 * (← get).tokens.length + 20)
      match ← peek with
      | none => if (← get).unclosed.isSome then giveUp none else return c
      | some .newline => advance; return c
      | some (.operator ";") => advance; more fuel c
      | some (.operator "&") => advance; more fuel (.background c)
      | _ => giveUp none
  /-- A command and those behind it on the same line. -/
  more (fuel : Nat) (c : Command) : Reader Command := do
    match ← peek with
    | none => if (← get).unclosed.isSome then giveUp none else return c
    | some .newline => advance; return c
    | _ =>
      match fuel with
      | 0 => giveUp none
      | fuel + 1 => return .sequence c (← commands fuel)

end Reader

def Unread.ofText (s : Text) : Unread :=
  let (tokens, texts, unclosed) := tokenize s
  ⟨tokens, texts, unclosed, 1⟩

/-- The commands of the next line, and what is left then. -/
def Unread.next (u : Unread) : Except SyntaxFault (Option Command × Unread) := Reader.line.run u

end Shell
end LiveDoc
