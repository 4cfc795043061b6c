/-
Starting programs by their names.
-/
import LiveDoc.Session.Start
import LiveDoc.Shell.Execute

namespace LiveDoc
namespace Shell

/-- How deep commands may be nested, and how often a loop may go round. -/
def maxSteps : Nat := 200000

/-- The programs that are there besides the shells and the utilities. -/
def programs : List String := ["env", "echo", "printf", "true", "false", "test", "[", "pwd", "kill"]

def isProgram (name : String) : Bool :=
  Execute.shells.contains name || programs.contains name || (Execute.utility? 0 name).isSome

def initialState (files : Files) (environment : List (String × String)) (command : String)
    (args : List String) : State where
  name := textOf command
  args := args.map textOf
  held := environment.map fun v => (textOf v.1, textOf v.2)
  exported := environment.map fun v => textOf v.1
  constant := []
  functions := []
  status := 0
  ports := [(0, .input), (1, .printed .output), (2, .printed .error)]
  buffers := []
  files := files
  number := Machine.mainNumber
  started := none
  saved := []
  line := 0
  inside := none
  strict := false
  fragile := false
  tested := false
  onExit := []

def launch (files : Files) (environment : List (String × String)) (command : String)
    (args : List String) : Except SpawnFault Process :=
  if (command :: args).any fun t => t.contains '\x00' then .error .notAnArgument
  else if isProgram (Execute.programName command) then
    let s := initialState files environment command args
    .ok ((Execute.program maxSteps s.name s.args).run s)
  else if command.contains '/' then .error (faultOfPath files command)
  else .error .notFound

end Shell
end LiveDoc
