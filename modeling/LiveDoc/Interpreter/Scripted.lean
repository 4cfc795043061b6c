/-
Stand-ins for what is outside a verifier: an interpreter that plays back a list of
evaluations, and a place for the transcript that is full at some point.
-/
import LiveDoc.Verifier

namespace LiveDoc

/-- The evaluations still to come and the code that has been sent. -/
structure Playback where
  turns : List Evaluation
  sent : List String
deriving Repr, Inhabited

inductive PlaybackError where
  | exhausted
deriving Repr, DecidableEq

def PlaybackError.message : PlaybackError → String
  | .exhausted => "scripted repl exhausted"

/-- Each evaluation takes the next turn, whatever the code is. -/
def Interpreter.scripted : Interpreter Playback PlaybackError where
  evaluate s code :=
    match s.turns with
    | [] => (.error .exhausted, { s with sent := s.sent ++ [code] })
    | turn :: rest => (.ok turn, ⟨rest, s.sent ++ [code]⟩)

/-- A sink that has room for some number of bytes only, and whose flush may fail. -/
def Sink.limited (room : Option Nat) (flushes : Bool) : Sink (List Char) where
  write s text :=
    let fits := match room with
      | none => true
      | some n => (Utf8.encode (s ++ text)).length ≤ n
    if fits then (s ++ text, true) else (s, false)
  flush s := (s, flushes)

end LiveDoc
