/-
A session with an interactive interpreter, one turn at a time.

A turn sends a piece of code and then waits for the prompt at the start of a
line, for the end of the interpreter's output, or for the deadline.  What the
interpreter prints comes through a channel, in chunks of any size and at any
moment.  The world around the session is therefore a list of happenings: a
chunk arrives in the channel, or the session looks into it.  A list that has run
out is a deadline that has passed.
-/
import LiveDoc.Prompt
import LiveDoc.Capture

namespace LiveDoc

inductive StreamEvent where
  /-- The interpreter has printed something, as output or as an error message. -/
  | data (chunk : Bytes)
  /-- The interpreter will print no more output.  Error messages may still come. -/
  | closed
deriving Repr, DecidableEq, Inhabited

inductive Happening where
  | arrives (e : StreamEvent)
  /-- The session takes what is first in the channel, if there is anything. -/
  | looks
deriving Repr, DecidableEq, Inhabited

inductive Delivery where
  | delivered
  | brokenPipe
  | failed
deriving Repr, DecidableEq, Inhabited

structure Session where
  prompt : Prompt
  /-- What has been received and belongs to no turn yet. -/
  pending : Bytes
  /-- What has arrived and has not been received, the oldest first. -/
  channel : List StreamEvent
  /-- Has the end of the output been received? -/
  exited : Bool
  writable : Bool
deriving DecidableEq

inductive WaitEnd where
  | matched
  | exited
  | timedOut
deriving Repr, DecidableEq, Inhabited

inductive SessionError where
  | write
deriving Repr, DecidableEq, Inhabited

def SessionError.message : SessionError → String
  | .write => "write code to interpreter"

namespace Session

def new (prompt : Prompt) : Session := ⟨prompt, [], [], false, true⟩

def arrive (s : Session) (e : StreamEvent) : Session := { s with channel := s.channel ++ [e] }

/-- The chunks that a channel starts with, in one piece, and what is behind them. -/
def splitData : List StreamEvent → Bytes × List StreamEvent
  | .data chunk :: rest => let (more, rest) := splitData rest; (chunk ++ more, rest)
  | channel => ([], channel)

/-- Receives what is first in the channel.  With the end of the output comes everything
that is directly behind it, since an error message may be among the last words. -/
def look (s : Session) : Session :=
  match s.channel with
  | [] => s
  | .data chunk :: rest => { s with pending := s.pending ++ chunk, channel := rest }
  | .closed :: rest =>
    let (words, rest) := splitData rest
    { s with pending := s.pending ++ words, channel := rest.drop 1, exited := true }

/-- Receives everything up to the end of the output and forgets it, and what was pending. -/
def discardStray (s : Session) : Session :=
  match (splitData s.channel).2 with
  | .closed :: rest => { s with pending := [], channel := rest, exited := true }
  | rest => { s with pending := [], channel := rest }

def waitEnd? (s : Session) : Option WaitEnd :=
  if (s.prompt.find s.pending).isSome then some .matched
  else if s.exited then some .exited
  else none

/-- What is printed in the turn that ends now, and the session without it. -/
def takeTurn (s : Session) : Bytes × Session :=
  match s.prompt.find s.pending with
  | some i => (s.pending.take i, { s with pending := s.pending.drop (i + s.prompt.bytes.length) })
  | none => (s.pending, { s with pending := [] })

def after (s : Session) : Happening → Session
  | .arrives e => s.arrive e
  | .looks => s.look

/-- Waits for the end of a turn: how it ends, the session then, and what has not happened
by then. -/
def wait (s : Session) : List Happening → WaitEnd × Session × List Happening
  | [] => (s.waitEnd?.getD .timedOut, s, [])
  | h :: rest =>
    match s.waitEnd? with
    | some e => (e, s, h :: rest)
    | none => wait (s.after h) rest

/-- A piece of code as it is sent: it ends with a line end. -/
def line (code : String) : Bytes :=
  bytesOf code ++ if code.toList.getLast? = some '\n' then [] else [10]

/-- What is written to the interpreter for a piece of code, if anything is. -/
def offer (s : Session) (code : String) : Option Bytes :=
  let s := s.discardStray
  if s.exited || !s.writable then none else some (line code)

def deliver (s : Session) (d : Delivery) : Except SessionError Session :=
  if s.exited || !s.writable then .ok s
  else
    match d with
    | .delivered => .ok s
    | .brokenPipe => .ok { s with writable := false }
    | .failed => .error .write

def verdictOf : WaitEnd → Verdict
  | .matched => .success
  | .exited => .exited
  | .timedOut => .timeout

/-- Evaluates a piece of code, of which `d` says what becomes when it is written. -/
def evaluate (s : Session) (d : Delivery) (schedule : List Happening) :
    Except SessionError Evaluation × Session × List Happening :=
  let s := s.discardStray
  match s.deliver d with
  | .error e => (.error e, s, schedule)
  | .ok s =>
    let (e, s, rest) := s.wait schedule
    let (raw, s) := s.takeTurn
    (.ok ⟨verdictOf e, raw⟩, s, rest)

end Session
end LiveDoc
