/-
Starting a session: waiting for the first prompt of an interpreter.
-/
import LiveDoc.Session
import LiveDoc.Text.Display

namespace LiveDoc

inductive SpawnFault where
  | notFound
  | permissionDenied
  | notDirectory
  | notAnArgument
deriving Repr, DecidableEq, Inhabited

def SpawnFault.message : SpawnFault → String
  | .notFound => "No such file or directory (os error 2)"
  | .permissionDenied => "Permission denied (os error 13)"
  | .notDirectory => "Not a directory (os error 20)"
  | .notAnArgument => "nul byte found in provided data"

inductive StartError where
  | prompt (refusal : Prompt.Refusal)
  | spawn (command : String) (fault : SpawnFault)
  /-- The output ended before a prompt came. -/
  | exited (command : String) (banner : String)
  | silent (command : String) (timeout : Nat) (banner : String)
deriving Repr, DecidableEq

namespace StartError

def message : StartError → String
  | .prompt refusal => refusal.message
  | .spawn command _ => "interpreter startup failed: spawn " ++ command
  | .exited command banner =>
    "interpreter startup failed: " ++ command ++ " exited before its first prompt\n" ++ banner
  | .silent command timeout banner =>
    "interpreter startup failed: no prompt from " ++ command ++ " within "
      ++ durationText timeout ++ "\n" ++ banner

def cause : StartError → Option String
  | .prompt refusal => refusal.cause
  | .spawn _ fault => some fault.message
  | _ => none

end StartError

namespace Session

/-- The session with an interpreter that has just been started by `command`, once its first
prompt has come, and what has not happened by then. -/
def start (prompt : Prompt) (command : String) (timeout : Nat) (schedule : List Happening) :
    Except StartError Session × List Happening :=
  let (e, s, rest) := (Session.new prompt).wait schedule
  let (raw, s) := s.takeTurn
  let banner := String.ofList (Utf8.decodeLossy raw)
  match e with
  | .matched => (.ok s, rest)
  | .exited => (.error (.exited command banner), rest)
  | .timedOut => (.error (.silent command timeout banner), rest)

end Session
end LiveDoc
