/-
Expanding words: variables, arithmetic and the output of commands are
substituted, the result is split into fields, and quotation marks go away.
-/
import LiveDoc.Shell.Arithmetic
import LiveDoc.Shell.Pattern
import LiveDoc.Shell.Script

namespace LiveDoc
namespace Shell
namespace Expand

inductive Piece where
  | cell (c : Cell)
  /-- Quotation marks, which make a field even of nothing. -/
  | present
  /-- The list of the arguments stands here and is empty. -/
  | absent
  /-- The end of one argument and the start of the next. -/
  | cut
deriving Repr, DecidableEq, Inhabited

inductive Mode where
  | plain
  /-- Between quotation marks that leave the dollar sign its meaning. -/
  | double
  | below
deriving Repr, DecidableEq, Inhabited

def Mode.quotes : Mode → Bool
  | .plain => false
  | _ => true

def substituted (mode : Mode) (t : Text) : List Piece :=
  t.map fun c => .cell ⟨c, mode.quotes, !mode.quotes⟩

/-- A text that stands in the word itself. -/
def literal (quoted : Bool) (t : Text) : List Piece := t.map fun c => .cell ⟨c, quoted, false⟩

def cellsOf (ps : List Piece) : List Cell :=
  ps.filterMap fun p =>
    match p with
    | .cell c => some c
    | .cut => some ⟨' ', true, false⟩
    | _ => none

def textOfCells (cs : List Cell) : Text := cs.map Cell.char

def textOfInt (n : Int) : Text := (toString n).toList

/-! ## Parameters -/

def defaultSeparators : Text := [' ', '\t', '\n']

def separators (s : State) : Text := (s.held.lookup "IFS".toList).getD defaultSeparators

def value? (s : State) (name : Text) : Option Text :=
  match name with
  | ['#'] => some (textOfInt s.args.length)
  | ['?'] => some (textOfInt s.status)
  | ['$'] => some (textOfInt s.number)
  | ['!'] => s.started.map fun n => textOfInt n
  | ['-'] => some (if s.strict then ['u'] else [])
  | ['0'] => some s.name
  | _ =>
    if name.all Char.isDigit then
      s.args[name.foldl (fun n c => n * 10 + (c.toNat - 48)) 0 - 1]?
    else s.held.lookup name

def joinedArgs (s : State) : Text :=
  let separator := match separators s with
    | c :: _ => [c]
    | [] => []
  (s.args.intersperse separator).flatten

def argPieces (mode : Mode) (s : State) : List Piece :=
  if s.args.isEmpty then [.absent]
  else ((s.args.map (substituted mode)).intersperse [.cut]).flatten

/-- The pieces of a parameter, `none` if it is not set. -/
def pieces? (mode : Mode) (name : Text) (s : State) : Option (List Piece) :=
  match name with
  | ['@'] => if s.args.isEmpty ∧ mode = .plain then some [] else some (argPieces mode s)
  | ['*'] =>
    if mode = .plain then (if s.args.isEmpty then some [] else some (argPieces mode s))
    else some (substituted mode (joinedArgs s))
  | name => (value? s name).map (substituted mode)

def parameter (mode : Mode) (name : Text) : Script (List Piece) := do
  let s ← get
  match pieces? mode name s with
  | some ps => return ps
  | none =>
    if s.strict then Script.giveUp (stringOf name ++ ": parameter not set") else return []

def parameterName? : Text → Option (Text × Text)
  | [] => none
  | c :: rest =>
    if c.isAlpha || c == '_' then
      let name := c :: rest.takeWhile Reader.isNameChar
      some (name, (c :: rest).drop name.length)
    else if c.isDigit || "@*#?$!-".toList.contains c then some ([c], rest)
    else none

def arithmetic (expression : Text) : Script Text := do
  let s ← get
  let look (name : Text) : Text := (s.held.lookup name).getD []
  match Arithmetic.evaluate look expression with
  | .ok (n, set) =>
    set.reverse.forM fun v => Script.setVariable v.1 (textOfInt v.2)
    return textOfInt n
  | .error e => Script.giveUp (e.message (stringOf expression))

def withoutLineEnds (t : Text) : Text := (t.reverse.dropWhile (· == '\n')).reverse

/-- The command between back quotes, in which the backslash quotes only some characters. -/
def backquoted : Text → Text
  | [] => []
  | ['\x60'] => []
  | '\\' :: c :: rest =>
    if c = '\x60' ∨ c = '\\' ∨ c = '$' then c :: backquoted rest else '\\' :: c :: backquoted rest
  | c :: rest => c :: backquoted rest

/-- The operators that may follow the name in braces, the longer ones first. -/
def braceOperators : List String :=
  [":-", ":=", ":?", ":+", "%%", "##", "-", "=", "?", "+", "%", "#"]

def braceOperator? (s : Text) : Option (String × Text) :=
  (braceOperators.find? fun op => op.toList.isPrefixOf s).map fun op => (op, s.drop op.length)

/-! ## Expanding -/

/-- Expands a word, where `run` gives the output of a command. -/
def pieces (run : Text → Script Text) : Nat → Mode → Text → Script (List Piece)
  | 0, _, _ => return []
  | _, _, [] => return []
  | fuel + 1, mode, c :: rest => do
    if c = '\\' then
      match rest with
      | [] => return literal true ['\\']
      | d :: rest' =>
        let quoted := mode == .plain || d == '$' || d == '\x60' || d == '\\' ||
          (mode == .double && d == '"')
        let here := if d = '\n' then [] else if quoted then literal true [d] else literal true [c, d]
        return here ++ (← pieces run fuel mode rest')
    else if c = '\'' ∧ mode = .plain then
      let inner := rest.takeWhile (· != '\'')
      let others ← pieces run fuel mode (rest.drop (inner.length + 1))
      return .present :: literal true inner ++ others
    else if c = '"' ∧ mode = .plain then return .present :: (← pieces run fuel .double rest)
    else if c = '"' ∧ mode = .double then pieces run fuel .plain rest
    else if c = '\x60' then
      match scan [.backquote] rest with
      | .error _ => return literal mode.quotes [c]
      | .ok _ =>
        let inner := quotation rest
        let output ← run (backquoted inner)
        let others ← pieces run fuel mode (rest.drop inner.length)
        return substituted mode (withoutLineEnds output) ++ others
    else if c = '$' then
      match rest with
      | '(' :: rest' =>
        let inner := nested '(' ')' 1 none rest'
        let others := pieces run fuel mode (rest'.drop (inner.length + 1))
        if inner.head? = some '(' ∧ inner.getLast? = some ')' then
          let expression ← pieces run fuel .double ((inner.drop 1).dropLast)
          let n ← arithmetic (textOfCells (cellsOf expression))
          return substituted mode n ++ (← others)
        else
          let output ← run inner
          return substituted mode (withoutLineEnds output) ++ (← others)
      | '\x7b' :: rest' =>
        let inner := nested '\x7b' '\x7d' 1 none rest'
        let here ← braces run fuel mode inner
        return here ++ (← pieces run fuel mode (rest'.drop (inner.length + 1)))
      | rest =>
        match parameterName? rest with
        | some (name, rest) =>
          let here ← parameter mode name
          return here ++ (← pieces run fuel mode rest)
        | none => return literal mode.quotes [c] ++ (← pieces run fuel mode rest)
    else return literal mode.quotes [c] ++ (← pieces run fuel mode rest)
where
  quotation : Text → Text
    | [] => []
    | '\\' :: c :: rest => '\\' :: c :: quotation rest
    | c :: rest => if c = '\x60' then [c] else c :: quotation rest
  /-- The text up to the bracket that closes the one in front of it. -/
  nested (opening closing : Char) : Nat → Option Char → Text → Text
    | _, _, [] => []
    | depth, none, '\\' :: c :: rest => '\\' :: c :: nested opening closing depth none rest
    | depth, none, c :: rest =>
      if c = closing ∧ depth ≤ 1 then []
      else
        let depth := if c = opening then depth + 1 else if c = closing then depth - 1 else depth
        let quote := if c = '\'' ∨ c = '"' then some c else none
        c :: nested opening closing depth quote rest
    | depth, some q, c :: rest =>
      c :: nested opening closing depth (if c = q then none else some q) rest
  /-- Expands what stands in braces. -/
  braces (run : Text → Script Text) (fuel : Nat) (mode : Mode) (inner : Text) :
      Script (List Piece) := do
    match inner with
    | '#' :: c :: name =>
      let s ← get
      let n := ((value? s (c :: name)).getD []).length
      return substituted mode (textOfInt n)
    | inner =>
      let name := if Reader.isName (inner.take 1) then inner.takeWhile Reader.isNameChar
        else if (inner.take 1).all Char.isDigit then inner.takeWhile Char.isDigit
        else inner.take 1
      match braceOperator? (inner.drop name.length) with
      | none =>
        if (inner.drop name.length).isEmpty && !name.isEmpty then parameter mode name
        else Script.giveUp "Bad substitution"
      | some (op, word) =>
        let s ← get
        let old := pieces? mode name s
        let isSet := match old with
          | some ps => if op.startsWith ":" then !(cellsOf ps).isEmpty else true
          | none => false
        match (op.toList.reverse.head?).getD ' ' with
        | '-' => if isSet then return old.getD [] else pieces run fuel mode word
        | '+' => if isSet then pieces run fuel mode word else return []
        | '=' =>
          if isSet then return old.getD []
          else
            let new ← pieces run fuel mode word
            Script.setVariable name (textOfCells (cellsOf new))
            return new
        | '?' =>
          if isSet then return old.getD []
          else
            let text := textOfCells (cellsOf (← pieces run fuel mode word))
            let missing := if op = ":?" then "parameter not set or null" else "parameter not set"
            let message := if text.isEmpty then missing else stringOf text
            Script.giveUp (stringOf name ++ ": " ++ message)
        | last =>
          let cells := cellsOf (← pieces run fuel .plain word)
          let value := textOfCells (cellsOf (old.getD []))
          let longest := op.length == 2
          let value := if last = '%' then withoutEnd longest cells value
            else withoutStart longest cells value
          return substituted mode value

end Expand
end Shell
end LiveDoc
