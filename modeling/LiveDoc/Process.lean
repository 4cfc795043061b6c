/-
Processes that run by themselves in simulated time.

A process is what it does next, with the rest as a continuation.  Nothing takes
time but sleeping and waiting for input.  A machine runs a process and those it
has started side by side, always the one whose clock is behind, and says what
they print and when.
-/
import LiveDoc.Session

namespace LiveDoc

inductive Stream where
  | output
  | error
deriving Repr, DecidableEq, Inhabited

inductive Process where
  | ended
  /-- Goes on forever and does nothing. -/
  | stuck
  | step (next : Unit → Process)
  | prints (stream : Stream) (text : Bytes) (next : Unit → Process)
  | reads (next : Bytes → Process)
  | sleeps (ms : Nat) (next : Unit → Process)
  | closesInput (next : Unit → Process)
  | closesOutput (next : Unit → Process)
  /-- Starts another process, which has no input, and learns its number. -/
  | starts (child : Process) (next : Nat → Process)
  /-- Waits until all processes that it has started have ended. -/
  | waits (next : Unit → Process)
  | kills (number : Nat) (next : Unit → Process)

instance : Inhabited Process := ⟨.ended⟩

structure Thread where
  number : Nat
  /-- The number of the process that started it. -/
  parent : Nat
  clock : Nat
  process : Process
  holdsInput : Bool
  holdsOutput : Bool
deriving Inhabited

namespace Thread

def hasEnded (t : Thread) : Bool :=
  match t.process with
  | .ended => true
  | _ => false

end Thread

/-- Processes that run side by side.  They share the input and the output. -/
structure Machine where
  threads : List Thread
  /-- The lines that have been sent and not been read, each with the time of sending. -/
  input : List (Nat × Bytes)
  outputOpen : Bool
  next : Nat
deriving Inhabited

namespace Machine

def mainNumber : Nat := 100

/-- A machine that runs one process.  Starting it is a step, behind which the process may
have ended already. -/
def new (p : Process) : Machine :=
  ⟨[⟨mainNumber, 0, 0, .step fun _ => p, true, true⟩], [], true, mainNumber + 1⟩

def reads (m : Machine) : Bool := m.threads.any fun t => t.holdsInput && !t.hasEnded

def linesWithEnds : Bytes → List Bytes
  | [] => []
  | b :: rest =>
    if b = 10 then [b] :: linesWithEnds rest
    else
      match linesWithEnds rest with
      | [] => [[b]]
      | l :: ls => (b :: l) :: ls

def send (m : Machine) (now : Nat) (text : Bytes) : Delivery × Machine :=
  if m.reads then
    (.delivered, { m with input := m.input ++ (linesWithEnds text).map fun l => (now, l) })
  else (.brokenPipe, m)

def readyAt? (m : Machine) (t : Thread) : Option Nat :=
  match t.process with
  | .ended => none
  | .stuck => none
  | .reads _ => m.input.head?.map fun line => max t.clock line.1
  | .waits _ =>
    let children := m.threads.filter fun c => c.parent = t.number
    if children.all Thread.hasEnded then
      some (children.foldl (fun time c => max time c.clock) t.clock)
    else none
  | _ => some t.clock

/-- The process that can do something first, and when. -/
def first? (m : Machine) : Option (Nat × Thread) :=
  m.threads.foldl
    (fun best t =>
      match m.readyAt? t, best with
      | none, best => best
      | some time, none => some (time, t)
      | some time, some (time', t') => if time < time' then some (time, t) else some (time', t'))
    none

def put (m : Machine) (t : Thread) : Machine :=
  { m with threads := m.threads.map fun t' => if t'.number = t.number then t else t' }

def stepThread (m : Machine) (time : Nat) (t : Thread) : Option (Stream × Bytes) × Machine :=
  let t := { t with clock := time }
  match t.process with
  | .ended => (none, m)
  | .stuck => (none, m)
  | .step next => (none, m.put { t with process := next () })
  | .prints stream text next => (some (stream, text), m.put { t with process := next () })
  | .reads next =>
    match m.input with
    | [] => (none, m)
    | line :: rest => (none, { m with input := rest }.put { t with process := next line.2 })
  -- Who sleeps has not ended yet, even if nothing comes after.
  | .sleeps ms next => (none, m.put { t with clock := time + ms, process := .step next })
  | .closesInput next => (none, m.put { t with holdsInput := false, process := next () })
  | .closesOutput next => (none, m.put { t with holdsOutput := false, process := next () })
  | .starts child next =>
    let m := m.put { t with process := next m.next }
    let child : Thread := ⟨m.next, t.number, time, child, false, t.holdsOutput⟩
    (none, { m with threads := m.threads ++ [child], next := m.next + 1 })
  | .waits next => (none, m.put { t with process := next () })
  | .kills number next =>
    let m := m.put { t with process := next () }
    let kill (c : Thread) : Thread :=
      if c.number = number then { c with clock := max c.clock time, process := .ended } else c
    (none, { m with threads := m.threads.map kill })

def holdsOutput (m : Machine) : Bool := m.threads.any fun t => t.holdsOutput && !t.hasEnded

/-- How much of what is printed at one moment comes in one chunk. -/
def chunkSize : Nat := 8192

/-- What has happened so far, the latest first, and one more chunk. -/
def withChunk (time : Nat) (stream : Stream) (text : Bytes)
    (events : List (Nat × Stream × StreamEvent)) : List (Nat × Stream × StreamEvent) :=
  match events with
  | (time', stream', .data chunk) :: rest =>
    if time = time' ∧ stream = stream' ∧ chunk.length + text.length ≤ chunkSize then
      (time', stream', .data (chunk ++ text)) :: rest
    else (time, stream, .data text) :: events
  | events => (time, stream, .data text) :: events

/-- Runs until a time, but for at most so many steps: what comes out, the latest first, and
the machine then. -/
def runFor (horizon : Nat) :
    Nat → List (Nat × Stream × StreamEvent) → Machine →
      List (Nat × Stream × StreamEvent) × Machine
  | 0, events, m => (events, m)
  | fuel + 1, events, m =>
    match m.first? with
    | none => (events, m)
    | some (time, t) =>
      if horizon ≤ time then (events, m)
      else
        let (printed, m) := m.stepThread time t
        let events := match printed with
          | some (stream, text) =>
            if text.isEmpty then events else withChunk time stream text events
          | none => events
        if m.outputOpen && !m.holdsOutput then
          runFor horizon fuel ((time, .output, .closed) :: events) { m with outputOpen := false }
        else runFor horizon fuel events m

def maxSteps : Nat := 1000000

/-- Runs until just before a time: what comes out and when, and the machine then. -/
def runUntil (m : Machine) (horizon : Nat) : List (Nat × StreamEvent) × Machine :=
  let (events, m) := runFor horizon maxSteps [] m
  (events.reverse.map fun e => (e.1, e.2.2), m)

end Machine
end LiveDoc
