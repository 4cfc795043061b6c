/-
Sessions with a process in simulated time.

What the machine prints becomes the happenings of a turn: every chunk arrives
and is received at once.  A turn ends at the time of the last chunk that it
needed, or at its deadline.
-/
import LiveDoc.Process
import LiveDoc.Session.Start
import LiveDoc.Verifier

namespace LiveDoc

/-- What a session is started with.  Times are in milliseconds. -/
structure SessionRequest where
  command : String
  args : List String
  prompt : String
  evalTimeout : Nat
  startupTimeout : Nat
deriving Repr, Inhabited

/-- A session and the machine on the other side of it. -/
structure Live where
  session : Session
  machine : Machine
  now : Nat
  /-- What has been printed and comes through the channel later, in order of time. -/
  coming : List (Nat × StreamEvent)
  evalTimeout : Nat

namespace Live

def happenings (events : List (Nat × StreamEvent)) : List Happening :=
  events.flatMap fun e => [.arrives e.2, .looks]

def arrivals (schedule : List Happening) : Nat :=
  schedule.countP fun h =>
    match h with
    | .arrives _ => true
    | .looks => false

/-- What comes until just before a time, what comes later, and the machine then. -/
def comingUntil (m : Machine) (coming : List (Nat × StreamEvent)) (horizon : Nat) :
    List (Nat × StreamEvent) × List (Nat × StreamEvent) × Machine :=
  let (events, m) := m.runUntil horizon
  let all := coming.merge events fun a b => a.1 ≤ b.1
  let soon := all.takeWhile fun e => e.1 < horizon
  (soon, all.drop soon.length, m)

/-- The time at which a wait ends that began at `now`, of whose chunks `left` have not been
received. -/
def endOf (now : Nat) (soon : List (Nat × StreamEvent)) (left : Nat) : Nat :=
  match (soon.take (soon.length - left)).getLast? with
  | some e => max now e.1
  | none => now

/-- Starts a session with a process that `launch` makes of the command and its arguments. -/
def start (launch : String → List String → Except SpawnFault Process) (r : SessionRequest) :
    Except StartError Live :=
  match Prompt.ofMarker r.prompt with
  | .error refusal => .error (.prompt refusal)
  | .ok prompt =>
    match launch r.command r.args with
    | .error fault => .error (.spawn r.command fault)
    | .ok p =>
      let (soon, later, m) := comingUntil (.new p) [] r.startupTimeout
      let (result, rest) := Session.start prompt r.command r.startupTimeout (happenings soon)
      result.map fun session =>
        let left := arrivals rest
        ⟨session, m, endOf 0 soon left, soon.drop (soon.length - left) ++ later, r.evalTimeout⟩

/-- Lets everything arrive that has been printed by now. -/
def settle (l : Live) : Live :=
  let (arrived, later, m) := comingUntil l.machine l.coming (l.now + 1)
  let session := arrived.foldl (fun s e => s.arrive e.2) l.session
  { l with session := session, machine := m, coming := later }

def sleep (l : Live) (ms : Nat) : Live := { l with now := l.now + ms }

def evaluate (l : Live) (code : String) : Except SessionError Evaluation × Live :=
  let l := l.settle
  let (delivery, m) := match l.session.offer code with
    | some text => l.machine.send l.now text
    | none => (.delivered, l.machine)
  let deadline := l.now + l.evalTimeout
  let (soon, later, m) := comingUntil m l.coming deadline
  let (result, session, rest) := l.session.evaluate delivery (happenings soon)
  let left := arrivals rest
  let now := match result with
    | .ok ⟨.timeout, _⟩ => deadline
    | _ => endOf l.now soon left
  (result, ⟨session, m, now, soon.drop (soon.length - left) ++ later, l.evalTimeout⟩)

end Live

def Interpreter.live : Interpreter Live SessionError := ⟨Live.evaluate⟩

end LiveDoc
