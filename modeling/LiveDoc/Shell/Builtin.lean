/-
The commands that the shell itself carries out.
-/
import LiveDoc.Shell.Condition
import LiveDoc.Shell.Fields
import LiveDoc.Shell.Format

namespace LiveDoc
namespace Shell
namespace Builtin

open Script

/-- Prints text to the output; the status says whether that succeeded. -/
def say (t : Text) : Script Unit := do
  if ← print 1 t then setStatus 0
  else
    complain "I/O error"
    setStatus 1

def printf (args : List Text) : Script Unit := do
  match args with
  | [] =>
    complain "usage: printf format [arg ...]"
    setStatus 2
  | format :: args =>
    let (t, messages) := Format.formatted format args
    messages.forM complain
    say t
    if !messages.isEmpty then setStatus 1

/-! ## Reading -/

/-- The cells of a line, in which a backslash quotes what follows, and whether the line goes
on on the next one. -/
def cellsOfLine : Text → List Cell × Bool
  | [] => ([], false)
  | ['\n'] => ([], false)
  | ['\\', '\n'] => ([], true)
  | '\\' :: c :: rest =>
    let (cells, more) := cellsOfLine rest
    (⟨c, true, false⟩ :: cells, more)
  | c :: rest =>
    let (cells, more) := cellsOfLine rest
    (⟨c, false, true⟩ :: cells, more)

def plainCells (t : Text) : List Cell :=
  (t.filter (· != '\n')).map fun c => ⟨c, false, true⟩

/-- Reads a line, or more if they go on: its cells, and whether it ended with a line end. -/
def readCells (raw : Bool) : Nat → Script (List Cell × Bool)
  | 0 => return ([], false)
  | fuel + 1 => do
    match ← readLine 0 with
    | none => return ([], false)
    | some t =>
      let ended := t.getLast? == some '\n'
      if raw then return (plainCells t, ended)
      else
        let (cells, more) := cellsOfLine t
        if more then
          let (others, ended) ← readCells raw fuel
          return (cells ++ others, ended)
        else return (cells, ended)

def separates (separators : Text) (c : Cell) : Bool := !c.quoted && separators.contains c.char

def isSpace (separators : Text) (c : Cell) : Bool :=
  separates separators c && Fields.isBlank c.char

/-- The values that variables get from a line: the last one takes all that is left. -/
def shares (separators : Text) : List Text → List Cell → List (Text × Text)
  | [], _ => []
  | [name], cells =>
    let cells := cells.dropWhile (isSpace separators)
    let cells := (cells.reverse.dropWhile (isSpace separators)).reverse
    [(name, Expand.textOfCells cells)]
  | name :: names, cells =>
    let cells := cells.dropWhile (isSpace separators)
    let field := cells.takeWhile fun c => !separates separators c
    let rest := (cells.drop field.length).dropWhile (isSpace separators)
    let rest := match rest with
      | c :: others => if separates separators c then others else rest
      | [] => []
    (name, Expand.textOfCells field) :: shares separators names rest

def read (args : List Text) : Script Unit := do
  let front := args.takeWhile fun a => a.head? == some '-'
  let raw := front.any fun a => a.contains 'r'
  let names := args.drop front.length
  let (cells, ended) ← readCells raw 1000
  let s ← get
  (shares (Expand.separators s) names cells).forM fun v => setVariable v.1 v.2
  setStatus (if ended then 0 else 1)

/-! ## Testing -/

/-- The command `test`, which must end with a bracket if it is called by one. -/
def runTest (bracket : Bool) (args : List Text) : Script Unit := do
  if bracket && args.getLast? != some [']'] then
    complain "missing ]"
    setStatus 2
  else
    let args := if bracket then args.dropLast else args
    match Condition.evaluate (← get).files args with
    | .ok holds => setStatus (if holds then 0 else 1)
    | .error message =>
      complain message
      setStatus 2

/-! ## Jumping -/

def numberArg (args : List Text) : Script (Option Nat) := do
  match args with
  | [] => return none
  | a :: _ =>
    if !a.isEmpty && a.all Char.isDigit then return some (Format.number a).1.toNat
    else giveUp ("Illegal number: " ++ stringOf a)

def exit (args : List Text) : Script Unit := do
  match ← numberArg args with
  | some n => setStatus (n % 256)
  | none => pure ()
  throw .exit

def returnFrom (args : List Text) : Script Unit := do
  match ← numberArg args with
  | some n => setStatus n
  | none => pure ()
  throw .return

/-! ## Variables -/

def exportVariables (args : List Text) : Script Unit := do
  args.forM fun a => do
    let name := a.takeWhile Reader.isNameChar
    match Reader.assignment? a with
    | some (name, value) => setVariable name value
    | none => pure ()
    modify fun s => { s with exported := name :: s.exported }
  setStatus 0

def keepVariables (args : List Text) : Script Unit := do
  args.forM fun a => do
    match Reader.assignment? a with
    | some (name, value) =>
      setVariable name value
      modify fun s => { s with constant := name :: s.constant }
    | none => modify fun s => { s with constant := a :: s.constant }
  setStatus 0

def localVariables (args : List Text) : Script Unit := do
  if (← get).saved.isEmpty then giveUp "not in a function"
  args.forM fun a => do
    let name := a.takeWhile Reader.isNameChar
    modify fun s =>
      match s.saved with
      | frame :: outer => { s with saved := ((name, s.held.lookup name) :: frame) :: outer }
      | [] => s
    match Reader.assignment? a with
    | some (name, value) => setVariable name value
    | none => pure ()
  setStatus 0

def unset (args : List Text) : Script Unit := do
  let functions := args.head? == some "-f".toList
  (args.filter fun a => a.head? != some '-').forM fun a =>
    if functions then modify fun s => { s with functions := s.functions.filter fun f => f.1 ≠ a }
    else unsetVariable a
  setStatus 0

def setOptions (on : Bool) (letters : Text) : Script Unit :=
  letters.forM fun c =>
    match c with
    | 'u' => modify fun s => { s with strict := on }
    | 'e' => modify fun s => { s with fragile := on }
    | _ => pure ()

def setArguments : List Text → Script Unit
  | [] => setStatus 0
  | a :: rest => do
    match a with
    | ['-', '-'] =>
      modify fun s => { s with args := rest }
      setStatus 0
    | '-' :: letters =>
      setOptions true letters
      setArguments rest
    | '+' :: letters =>
      setOptions false letters
      setArguments rest
    | _ =>
      modify fun s => { s with args := a :: rest }
      setStatus 0

def shift (args : List Text) : Script Unit := do
  let n := (← numberArg args).getD 1
  if (← get).args.length < n then giveUp "can't shift that many"
  else
    modify fun s => { s with args := s.args.drop n }
    setStatus 0

/-! ## Directories and processes -/

def cd (args : List Text) : Script Unit := do
  let s ← get
  let dir := stringOf (args.headD "/".toList)
  match s.files.locate dir with
  | .ok path =>
    if s.files.at? path == some .directory then
      modify fun s => { s with files := { s.files with here := path } }
      setStatus 0
    else
      complain ("can't cd to " ++ dir)
      setStatus 2
  | .error _ =>
    complain ("can't cd to " ++ dir)
    setStatus 2

def pwd : Script Unit := do say (textOf (Path.ofParts (← get).files.here) ++ ['\n'])

def killAll (args : List Text) : Script Unit := do
  let signals := args.filter fun a => a.head? == some '-'
  let numbers := (args.filter fun a => a.head? != some '-').map fun a => (Format.number a).1.toNat
  setStatus 0
  if signals.all fun s => s != "-0".toList then
    numbers.forM fun n => do
      if n = (← get).number then
        modify fun s => { s with onExit := [] }
        setStatus 143
        throw .exit
      else kill n

/-- The command `trap`, as far as it is about the end of the shell. -/
def trap (args : List Text) : Script Unit := do
  match args with
  | action :: signals =>
    if signals.any fun s => s == "EXIT".toList || s == "0".toList then
      modify fun s => { s with onExit := if action = ['-'] then [] else action }
  | [] => pure ()
  setStatus 0

/-- The commands whose assignments last, and that end the shell when they fail. -/
def special : List String :=
  [":", "break", "continue", "eval", "exec", "exit", "export", "readonly", "return", "set",
   "shift", "trap", "unset", "."]

/-- The commands that are carried out without running other commands, by their names. -/
def ofName? : String → Option (List Text → Script Unit)
  | ":" => some fun _ => setStatus 0
  | "true" => some fun _ => setStatus 0
  | "false" => some fun _ => setStatus 1
  | "echo" => some fun args => say (Format.echoed args)
  | "printf" => some printf
  | "read" => some read
  | "test" => some (runTest false)
  | "[" => some (runTest true)
  | "exit" => some exit
  | "return" => some returnFrom
  | "break" => some fun args => do throw (.break ((← numberArg args).getD 1))
  | "continue" => some fun args => do throw (.continue ((← numberArg args).getD 1))
  | "export" => some exportVariables
  | "readonly" => some keepVariables
  | "local" => some localVariables
  | "unset" => some unset
  | "set" => some setArguments
  | "shift" => some shift
  | "cd" => some cd
  | "pwd" => some fun _ => pwd
  | "wait" => some fun _ => do wait; setStatus 0
  | "kill" => some killAll
  | "trap" => some trap
  | "umask" => some fun _ => setStatus 0
  | _ => none

end Builtin
end Shell
end LiveDoc
