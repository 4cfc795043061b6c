/-
The state of a shell, and what runs in it.

A script is a part of a process: it is given the state and what comes after it,
and becomes the process that does both.
-/
import LiveDoc.Files
import LiveDoc.Process
import LiveDoc.Shell.Command

namespace LiveDoc
namespace Shell

inductive Port where
  | input
  | printed (stream : Stream)
  /-- A text that is written at its end and read from its start. -/
  | buffer (number : Nat)
  | file (path : List String)
  | nowhere
deriving Repr, DecidableEq, Inhabited

structure State where
  /-- What the shell is called in its messages. -/
  name : Text
  args : List Text
  held : List (Text × Text)
  /-- The variables that other programs get. -/
  exported : List Text
  /-- The variables that keep their values. -/
  constant : List Text
  functions : List (Text × Command)
  status : Nat
  ports : List (Nat × Port)
  buffers : List (Nat × Text)
  files : Files
  number : Nat
  started : Option Nat
  /-- For every function that is running, the values of variables to restore behind it. -/
  saved : List (List (Text × Option Text))
  line : Nat
  /-- The command whose text is running, for messages. -/
  inside : Option String
  /-- Is it an error to use a variable that is not set? -/
  strict : Bool
  /-- Does a command that fails end the shell? -/
  fragile : Bool
  /-- Is the status of the command that is running looked at? -/
  tested : Bool
  onExit : Text
deriving Inhabited

/-- How a script leaves the commands around it. -/
inductive Jump where
  | exit
  | return
  | break (n : Nat)
  /-- Goes on with the next round of a loop, after it has left so many. -/
  | continue (n : Nat)
deriving Repr, DecidableEq, Inhabited

/-- A part of a process that runs in a shell. -/
def Script (α : Type) : Type := State → (Except Jump α → State → Process) → Process

namespace Script

instance : Monad Script where
  pure a := fun s k => k (.ok a) s
  bind x f := fun s k =>
    x s fun r s =>
      match r with
      | .ok a => f a s k
      | .error j => k (.error j) s

instance : MonadStateOf State Script where
  get := fun s k => k (.ok s) s
  set s := fun _ k => k (.ok ()) s
  modifyGet f := fun s k => let (a, s) := f s; k (.ok a) s

instance : MonadExceptOf Jump Script where
  throw j := fun s k => k (.error j) s
  tryCatch x handle := fun s k =>
    x s fun r s =>
      match r with
      | .ok a => k (.ok a) s
      | .error j => handle j s k

instance {α : Type} : Inhabited (Script α) := ⟨fun _ _ => .stuck⟩

def stuck {α : Type} : Script α := fun _ _ => .stuck

/-- Lets the process take a step, so that a loop may go on forever. -/
def pause : Script Unit := fun s k => .step fun _ => k (.ok ()) s

def sleep (ms : Nat) : Script Unit := fun s k => .sleeps ms fun _ => k (.ok ()) s

def wait : Script Unit := fun s k => .waits fun _ => k (.ok ()) s

def kill (number : Nat) : Script Unit := fun s k => .kills number fun _ => k (.ok ()) s

def start (x : Script Unit) : Script Nat := fun s k =>
  .starts (x s fun _ _ => .ended) fun number => k (.ok number) s

def run (x : Script Unit) (s : State) : Process := x s fun _ _ => .ended

/-! ## State -/

def setStatus (n : Nat) : Script Unit := modify fun s => { s with status := n }

def succeeded : Script Bool := do return (← get).status == 0

/-! ## Reading and printing -/

def buffered (n : Nat) : Script Text := do return ((← get).buffers.lookup n).getD []

def setBuffer (n : Nat) (t : Text) : Script Unit :=
  modify fun s =>
    { s with buffers := s.buffers.map fun b => if b.1 = n then (n, t) else b }

def newBuffer (t : Text) : Script Nat :=
  modifyGet fun s =>
    let n := s.buffers.foldl (fun n b => max n (b.1 + 1)) 0
    (n, { s with buffers := (n, t) :: s.buffers })

def dropBuffer (n : Nat) : Script Unit :=
  modify fun s => { s with buffers := s.buffers.filter fun b => b.1 ≠ n }

/-- Prints text to a descriptor: did it succeed? -/
def print (descriptor : Nat) (t : Text) : Script Bool := do
  if t.isEmpty then return true
  match (← get).ports.lookup descriptor with
  | some (.printed stream) => fun s k => .prints stream (bytesOfText t) fun _ => k (.ok true) s
  | some (.buffer n) =>
    setBuffer n ((← buffered n) ++ t)
    return true
  | some (.file path) =>
    let files := (← get).files
    let old := match files.at? path with
      | some (.file content) => content
      | _ => []
    modify fun s => { s with files := files.write path (old ++ bytesOfText t) }
    return true
  | some .nowhere => return true
  | _ => return false

/-- Reads a line with its line end, `none` at the end of the text. -/
def readLine (descriptor : Nat) : Script (Option Text) := do
  match (← get).ports.lookup descriptor with
  | some .input => fun s k => .reads fun line => k (.ok (some (textOfBytes line))) s
  | some (.buffer n) =>
    let t ← buffered n
    if t.isEmpty then return none
    let line := t.take ((t.takeWhile (· != '\n')).length + 1)
    setBuffer n (t.drop line.length)
    return some line
  | _ => return none

/-- Reads everything that is left.  The input of the process never ends. -/
def readAll (descriptor : Nat) : Script Text := do
  match (← get).ports.lookup descriptor with
  | some .input => stuck
  | some (.buffer n) =>
    let t ← buffered n
    setBuffer n []
    return t
  | _ => return []

def complain (message : String) : Script Unit := do
  let s ← get
  let inside := match s.inside with
    | some command => command ++ ": "
    | none => ""
  let _ ← print 2
    (s.name ++ textOf (": " ++ toString s.line ++ ": " ++ inside ++ message ++ "\n"))

def giveUp {α : Type} (message : String) : Script α := do
  complain message
  setStatus 2
  throw .exit

/-! ## Variables -/

/-- Ends the shell if a variable keeps its value. -/
def refuseConstant (name : Text) : Script Unit := do
  if (← get).constant.contains name then giveUp (stringOf name ++ ": is read only")

def setVariable (name value : Text) : Script Unit := do
  refuseConstant name
  modify fun s =>
    { s with held := (name, value) :: s.held.filter fun v => v.1 ≠ name }

def unsetVariable (name : Text) : Script Unit := do
  refuseConstant name
  modify fun s => { s with held := s.held.filter fun v => v.1 ≠ name }

def restoreVariable (name : Text) : Option Text → Script Unit
  | some value => setVariable name value
  | none => unsetVariable name

/-! ## Redirecting -/

/-- Lets go of the input and the output if no descriptor leads there. -/
def release : Script Unit := do
  let ports := (← get).ports.map Prod.snd
  if !ports.contains .input then fun s k => .closesInput fun _ => k (.ok ()) s
  if !ports.contains (.printed .output) then fun s k => .closesOutput fun _ => k (.ok ()) s

/-- Lets a descriptor lead somewhere, or nowhere at all. -/
def setPort (descriptor : Nat) (port : Option Port) : Script Unit :=
  modify fun s =>
    let others := s.ports.filter fun p => p.1 ≠ descriptor
    { s with ports := (port.map fun p => (descriptor, p)).toList ++ others }

/-- Runs a script and restores the descriptors behind it, whatever happens. -/
def withPorts {α : Type} (x : Script α) : Script α := do
  let ports := (← get).ports
  try
    let a ← x
    modify fun s => { s with ports := ports }
    return a
  catch j =>
    modify fun s => { s with ports := ports }
    throw j

/-- Runs a script whose status is looked at. -/
def guarded (x : Script Unit) : Script Unit := do
  let before := (← get).tested
  modify fun s => { s with tested := true }
  x
  modify fun s => { s with tested := before }

/-- Runs a script as a part of a command, which messages name. -/
def inside (command : String) (x : Script Unit) : Script Unit := do
  let before := (← get).inside
  modify fun s => { s with inside := some command }
  try
    x
    modify fun s => { s with inside := before }
  catch j =>
    modify fun s => { s with inside := before }
    throw j

/-- Runs a script in a copy of the shell.  What it prints and writes to files stays, and its
status. -/
def inCopy (x : Script Unit) : Script Unit := do
  let outside ← get
  try x catch _ => pure ()
  modify fun s =>
    let files := { s.files with here := outside.files.here }
    { outside with status := s.status, buffers := s.buffers, files := files }

def captured (x : Script Unit) : Script Text := do
  let n ← newBuffer []
  inCopy do
    setPort 1 (some (.buffer n))
    x
  let t ← buffered n
  dropBuffer n
  return t

end Script
end Shell
end LiveDoc
