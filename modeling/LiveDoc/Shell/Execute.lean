/-
Running commands.
-/
import LiveDoc.Session.Start
import LiveDoc.Shell.Builtin
import LiveDoc.Shell.Utility

namespace LiveDoc
namespace Shell

/-! ## Paths that lead to no program -/

/-- The files and directories that are on every system and are no programs. -/
def systemFiles : List String := ["/dev/null", "/dev/zero", "/dev/tty", "/etc/passwd"]

def systemDirectories : List String :=
  ["", "/bin", "/dev", "/etc", "/home", "/proc", "/root", "/tmp", "/usr", "/usr/bin", "/var"]

/-- Why a path cannot be run that leads to no program. -/
def faultOfPath (files : Files) (path : String) : SpawnFault :=
  let plain := String.ofList (path.toList.reverse.dropWhile (· == '/')).reverse
  if systemDirectories.contains plain then .permissionDenied
  else if systemFiles.contains path then .permissionDenied
  else if systemFiles.any fun file => path.startsWith (file ++ "/") then .notDirectory
  else
    match files.locate path with
    | .error .notDirectory => .notDirectory
    | .error _ => .notFound
    | .ok place => if (files.at? place).isSome then .permissionDenied else .notFound

namespace Execute

open Script

/-! ## Redirections -/

def nullPath : Text := "/dev/null".toList

def portFrom (path : Text) : Script (Option Port) := do
  if path = nullPath then return some .nowhere
  match (← get).files.read (stringOf path) with
  | .ok content => return some (.buffer (← newBuffer (textOfBytes content)))
  | .error _ =>
    complain ("cannot open " ++ stringOf path ++ ": No such file")
    return none

/-- The port for writing a file, which is emptied unless it is to grow. -/
def portTo (grows : Bool) (path : Text) : Script (Option Port) := do
  let s ← get
  if path = nullPath then return some .nowhere
  else if path = "/dev/stdout".toList then return s.ports.lookup 1
  else if path = "/dev/stderr".toList then return s.ports.lookup 2
  else
    let refuse : Script (Option Port) := do
      complain ("cannot create " ++ stringOf path ++ ": Directory nonexistent")
      return none
    match s.files.locate (stringOf path) with
    | .error _ => refuse
    | .ok place =>
      match s.files.at? place with
      | some .directory =>
        complain ("cannot create " ++ stringOf path ++ ": Is a directory")
        return none
      | some (.file _) =>
        if !grows then modify fun s => { s with files := s.files.write place [] }
        return some (.file place)
      | none =>
        match s.files.create place with
        | .ok files =>
          modify fun s => { s with files := files }
          return some (.file place)
        | .error _ => refuse

/-- Redirects a descriptor: did it succeed? -/
def redirect (run : Text → Script Text) (r : Redirect) : Script Bool := do
  let lead (port : Option Port) : Script Bool := do
    match port with
    | some p =>
      setPort r.descriptor (some p)
      return true
    | none => return false
  match r.target with
  | .readFrom w => lead (← portFrom (← Fields.textOfWord run w))
  | .writeTo w => lead (← portTo false (← Fields.textOfWord run w))
  | .appendTo w => lead (← portTo true (← Fields.textOfWord run w))
  | .readText t => lead (some (.buffer (← newBuffer (← Fields.textOfBelow run t))))
  | .sameAs w =>
    let target ← Fields.textOfWord run w
    if target = ['-'] then
      setPort r.descriptor none
      return true
    else if target.length ≠ 1 ∨ !target.all Char.isDigit then
      giveUp "Syntax error: Bad fd number"
    else
      match (← get).ports.lookup (Format.decimal target).1 with
      | some p => lead (some p)
      | none =>
        complain (stringOf target ++ ": Bad file descriptor")
        return false

/-- Redirects descriptors in order until one fails. -/
def redirectAll (run : Text → Script Text) : List Redirect → Script Bool
  | [] => return true
  | r :: rest => do
    if ← redirect run r then redirectAll run rest
    else
      setStatus 2
      return false

/-! ## Utilities -/

/-- The time that an argument of the command `sleep` says, in milliseconds. -/
def duration (t : Text) : Nat :=
  let (whole, rest) := Format.decimal t
  let (fraction, rest) := match rest with
    | '.' :: rest => (rest.takeWhile Char.isDigit, rest.dropWhile Char.isDigit)
    | rest => ([], rest)
  let thousandths := (Format.decimal ((fraction ++ ['0', '0', '0']).take 3)).1
  let unit := match rest with
    | 'm' :: _ => 60
    | 'h' :: _ => 3600
    | 'd' :: _ => 86400
    | _ => 1
  (whole * 1000 + thousandths) * unit

def copyInput : Nat → Script Unit
  | 0 => stuck
  | fuel + 1 => do
    match ← readLine 0 with
    | none => return
    | some t =>
      let _ ← print 1 t
      copyInput fuel

def copyFiles (fuel : Nat) : List Text → Script Unit
  | [] => return
  | path :: rest => do
    if path = ['-'] then copyInput fuel
    else
      match (← get).files.read (stringOf path) with
      | .ok content =>
        let _ ← print 1 (textOfBytes content)
      | .error e =>
        let reason := (e.message.splitOn " (os error").headD ""
        let _ ← print 2 (textOf ("cat: " ++ stringOf path ++ ": " ++ reason ++ "\n"))
        setStatus 1
    copyFiles fuel rest

def contents (command : String) : List Text → Script Text
  | [] => return []
  | path :: rest => do
    match (← get).files.read (stringOf path) with
    | .ok content => return textOfBytes content ++ (← contents command rest)
    | .error e =>
      let reason := (e.message.splitOn " (os error").headD ""
      let _ ← print 2 (textOf (command ++ ": " ++ stringOf path ++ ": " ++ reason ++ "\n"))
      setStatus 1
      contents command rest

def transform (name : String) (u : Utility) : Script Unit := do
  setStatus 0
  match u with
  | .prints t status =>
    let _ ← print 1 t
    setStatus status
  | .fails message status =>
    let _ ← print 2 (textOf (name ++ ": " ++ message ++ "\n"))
    setStatus status
  | .filter files run =>
    let input ← if files.isEmpty then readAll 0 else contents name files
    let (out, status) := run input
    let _ ← print 1 out
    if status ≠ 0 then setStatus status

/-- The commands that are programs of their own and run no others, by their names. -/
def utility? (fuel : Nat) (name : String) : Option (List Text → Script Unit) :=
  match name with
  | "cat" => some fun args => do
    let files := args.filter fun a => a.head? != some '-' || a == ['-']
    setStatus 0
    if files.isEmpty then copyInput fuel else copyFiles fuel files
  | "sleep" => some fun args => do
    sleep (args.foldl (fun n a => n + duration a) 0)
    setStatus 0
  | name => (Utility.ofName? name).map fun f => fun args => transform name (f args)

def programName (name : String) : String :=
  match ["/usr/local/bin/", "/usr/bin/", "/bin/"].find? fun dir => name.startsWith dir with
  | some dir => String.ofList (name.toList.drop dir.length)
  | none => name

def shells : List String := ["sh", "dash"]

def notFound (name : Text) : Script Unit := do
  let s ← get
  let fault := if name.isEmpty then .permissionDenied
    else if name.contains '/' then faultOfPath s.files (stringOf name)
    else .notFound
  match fault with
  | .permissionDenied =>
    complain (stringOf name ++ ": Permission denied")
    setStatus 126
  | _ =>
    complain (stringOf name ++ ": not found")
    setStatus 127

/-! ## Commands -/

def valuesBefore (s : State) (assignments : List (Text × Text)) : List (Text × Option Text) :=
  assignments.map fun a => (a.1, s.held.lookup a.1)

def restoreAll (values : List (Text × Option Text)) : Script Unit :=
  values.forM fun v => restoreVariable v.1 v.2

def substitutes (raw : Text) : Bool :=
  match raw with
  | '$' :: '(' :: rest => rest.head? != some '(' || substitutes rest
  | c :: rest => c == '\x60' || substitutes rest
  | [] => false

def freshState (s : State) (name : Text) (args : List Text) : State :=
  { s with
    name := name, args := args, functions := [], constant := [], status := 0, started := none, saved := [],
    held := s.held.filter fun v => s.exported.contains v.1,
    line := 0, inside := none, strict := false, fragile := false, tested := false, onExit := [] }

/-- Reads the options in front of the arguments of a shell: whether text to run comes first,
and the operands. -/
def shellOptions : Bool → List Text → Script (Bool × List Text)
  | isText, [] => return (isText, [])
  | isText, a :: rest => do
    match a with
    | ['-'] => return (isText, rest)
    | ['-', '-'] => return (isText, rest)
    | '-' :: letters =>
      match letters.find? fun c => !("ceuxsivnlabCfmEIV".toList.contains c) with
      | some c => giveUp (String.ofList ("Illegal option -".toList ++ [c]))
      | none =>
        Builtin.setOptions true letters
        shellOptions (isText || letters.contains 'c') rest
    | '+' :: letters =>
      Builtin.setOptions false letters
      shellOptions isText rest
    | _ => return (isText, a :: rest)

/-- Is a loop left by a jump out of its body?  A jump that goes further is passed on. -/
def leaveLoop (j : Jump) : Script Bool := do
  match j with
  | .break n =>
    if n ≤ 1 then return true else throw (.break (n - 1))
  | .continue n =>
    if n ≤ 1 then return false else throw (.continue (n - 1))
  | j => throw j

mutual

def execute : Nat → Command → Script Unit
  | 0, _ => stuck
  | fuel + 1, c => do
    match c with
    | .nothing => return
    | .sequence a b =>
      execute fuel a
      execute fuel b
    | .both a b =>
      guarded (execute fuel a)
      if ← succeeded then execute fuel b
    | .either a b =>
      guarded (execute fuel a)
      if !(← succeeded) then execute fuel b
    | .negated c =>
      guarded (execute fuel c)
      setStatus (if ← succeeded then 1 else 0)
    | .pipe a b =>
      let n ← newBuffer []
      inCopy do
        setPort 1 (some (.buffer n))
        execute fuel a
      inCopy do
        setPort 0 (some (.buffer n))
        execute fuel b
      dropBuffer n
    | .background c =>
      let number ← start (detached fuel c)
      modify fun s => { s with started := some number, status := 0 }
    | .subshell c => inCopy (execute fuel c)
    | .choice condition yes no =>
      guarded (execute fuel condition)
      if ← succeeded then execute fuel yes
      else
        setStatus 0
        execute fuel no
    | .loop whileTrue condition body => rounds fuel whileTrue condition body 0
    | .each name words body =>
      let values ← match words with
        | some ws => Fields.ofWords (output fuel) ws
        | none => do pure (← get).args
      setStatus 0
      eachRound fuel name values body
    | .select word arms =>
      let value ← Fields.textOfWord (output fuel) word
      setStatus 0
      selectArm fuel value arms
    | .function name body =>
      modify fun s => { s with functions := (name, body) :: s.functions.filter fun f => f.1 ≠ name }
      setStatus 0
    | .redirected c rs =>
      withPorts do
        if ← redirectAll (output fuel) rs then execute fuel c
    | .simple line assignments words rs =>
      modify fun s => { s with line := line }
      simple fuel assignments words rs
      let s ← get
      if s.fragile && !s.tested && s.status ≠ 0 then throw .exit

def output : Nat → Text → Script Text
  | 0, _ => stuck
  | fuel + 1, t => captured (runText fuel (Unread.ofText t))

/-- Runs a command in the background, without input. -/
def detached : Nat → Command → Script Unit
  | 0, _ => stuck
  | fuel + 1, c => do
    setPort 0 (some .nowhere)
    match c with
    | .redirected c rs =>
      if ← redirectAll (output fuel) rs then
        release
        execute fuel c
    | .simple line assignments words rs =>
      if ← redirectAll (output fuel) rs then
        release
        execute fuel (.simple line assignments words [])
    | c =>
      release
      execute fuel c

/-- Runs the rounds of a loop.  The status is that of the body. -/
def rounds : Nat → Bool → Command → Command → Nat → Script Unit
  | 0, _, _, _, _ => stuck
  | fuel + 1, whileTrue, condition, body, status => do
    pause
    let left ← try
        guarded (execute fuel condition)
        pure false
      catch j => leaveLoop j
    if left then return
    if (← succeeded) == whileTrue then
      let left ← try
          execute fuel body
          pure false
        catch j => leaveLoop j
      if left then return
      rounds fuel whileTrue condition body (← get).status
    else setStatus status

def eachRound : Nat → Text → List Text → Command → Script Unit
  | 0, _, _, _ => stuck
  | _, _, [], _ => return
  | fuel + 1, name, value :: rest, body => do
    pause
    setVariable name value
    let left ← try
        execute fuel body
        pure false
      catch j => leaveLoop j
    if left then return
    eachRound fuel name rest body

def selectArm : Nat → Text → List (List Text × Command) → Script Unit
  | 0, _, _ => stuck
  | _, _, [] => return
  | fuel + 1, value, (ps, body) :: rest => do
    if ← anyMatches fuel value ps then execute fuel body
    else selectArm fuel value rest

def anyMatches : Nat → Text → List Text → Script Bool
  | 0, _, _ => stuck
  | _, _, [] => return false
  | fuel + 1, value, p :: rest => do
    let cells ← Fields.patternOfWord (output fuel) p
    if globMatches cells value then return true else anyMatches fuel value rest

def simple : Nat → List (Text × Text) → List Text → List Redirect → Script Unit
  | 0, _, _, _ => stuck
  | fuel + 1, assignments, words, rs => do
    let fields ← Fields.ofWords (output fuel) words
    match fields with
    | [] =>
      withPorts do
        if ← redirectAll (output fuel) rs then
          assign fuel assignments
          if !(assignments.any fun a => substitutes a.2) && !(words.any substitutes) then
            setStatus 0
    | name :: args =>
      if name = "exec".toList then
        if args.isEmpty then
          if ← redirectAll (output fuel) rs then
            release
            setStatus 0
          else throw .exit
        else
          if ← redirectAll (output fuel) rs then
            assign fuel assignments
            release
            modify fun s => { s with onExit := [] }
            program fuel (args.headD []) (args.drop 1)
          throw .exit
      else
        withPorts do
          if ← redirectAll (output fuel) rs then
            let before := valuesBefore (← get) assignments
            let exported := (← get).exported
            assign fuel assignments
            modify fun s => { s with exported := assignments.map Prod.fst ++ s.exported }
            call fuel name args
            if !(stringOf name ∈ Builtin.special) then
              restoreAll before
              modify fun s => { s with exported := exported }
          else if stringOf name ∈ Builtin.special then throw .exit

def assign : Nat → List (Text × Text) → Script Unit
  | 0, _ => stuck
  | _, [] => return
  | fuel + 1, (name, raw) :: rest => do
    let value ← Fields.textOfWord (output fuel) raw
    setVariable name value
    assign fuel rest

def call : Nat → Text → List Text → Script Unit
  | 0, _, _ => stuck
  | fuel + 1, name, args => do
    let s ← get
    match s.functions.lookup name with
    | some body => callFunction fuel body args
    | none =>
      match stringOf name with
      | "eval" =>
        inside "eval" do
          setStatus 0
          runText fuel (Unread.ofText (args.intersperse [' ']).flatten)
      | "." =>
        let path := args.headD []
        inside "." do
          if !path.contains '/' then giveUp (stringOf path ++ ": not found")
          match s.files.read (stringOf path) with
          | .ok content =>
            try runText fuel (Unread.ofText (textOfBytes content))
            catch j =>
              match j with
              | .return => pure ()
              | j => throw j
          | .error _ => giveUp ("cannot open " ++ stringOf path ++ ": No such file")
      | "command" =>
        match args with
        | ['-', 'v'] :: what :: _ =>
          let known := (s.functions.lookup what).isSome || what == "eval".toList ||
            (Builtin.ofName? (stringOf what)).isSome
          if known then Builtin.say (what ++ ['\n'])
          else if (utility? 0 (stringOf what)).isSome || stringOf what ∈ shells then
            Builtin.say ("/usr/bin/".toList ++ what ++ ['\n'])
          else setStatus 127
        | what :: rest => callBuiltin fuel what rest
        | [] => setStatus 0
      | _ => callBuiltin fuel name args

def callFunction : Nat → Command → List Text → Script Unit
  | 0, _, _ => stuck
  | fuel + 1, body, args => do
    let before ← get
    modify fun s => { s with args := args, saved := [] :: s.saved }
    let restore : Script Unit := do
      let frame := (← get).saved.headD []
      modify fun s => { s with args := before.args, saved := before.saved }
      restoreAll frame
    try
      execute fuel body
      restore
    catch j =>
      restore
      match j with
      | .return => pure ()
      | j => throw j

/-- Runs a command of the shell itself, or else a program. -/
def callBuiltin : Nat → Text → List Text → Script Unit
  | 0, _, _ => stuck
  | fuel + 1, name, args => do
    match Builtin.ofName? (stringOf name) with
    | some f => inside (stringOf name) (f args)
    | none => program fuel name args

def program : Nat → Text → List Text → Script Unit
  | 0, _, _ => stuck
  | fuel + 1, name, args => do
    let plain := programName (stringOf name)
    if plain ∈ shells then
      inCopy do
        modify fun s => freshState s name args
        shell fuel args
    else if plain = "env" then
      let given := args.takeWhile fun a => (Reader.assignment? a).isSome
      match args.drop given.length with
      | [] => setStatus 0
      | name :: args =>
        inCopy do
          given.forM fun a =>
            match Reader.assignment? a with
            | some (name, value) => do
              setVariable name value
              modify fun s => { s with exported := name :: s.exported }
            | none => pure ()
          program fuel name args
    else
      match utility? fuel plain with
      | some f => f args
      | none =>
        if plain ∈ ["echo", "printf", "true", "false", "test", "[", "pwd", "kill"] then
          match Builtin.ofName? plain with
          | some f => f args
          | none => notFound name
        else notFound name

def runText : Nat → Unread → Script Unit
  | 0, _ => stuck
  | fuel + 1, u => do
    match u.next with
    | .error e =>
      modify fun s => { s with line := e.line }
      giveUp e.message
    | .ok (none, _) => return
    | .ok (some c, u) =>
      execute fuel c
      runText fuel u

/-- Runs the commands of the input, of which `begun` has been read and is no command yet. -/
def runInput : Nat → Text → Script Unit
  | 0, _ => stuck
  | fuel + 1, begun => do
    match ← readLine 0 with
    | none => runText fuel (Unread.ofText begun)
    | some line =>
      let t := begun ++ line
      match (Unread.ofText t).next with
      | .error e =>
        if e.isIncomplete then runInput fuel t
        else
          modify fun s => { s with line := e.line }
          giveUp e.message
      | .ok (none, _) => runInput fuel []
      | .ok (some c, u) =>
        execute fuel c
        runText fuel u
        runInput fuel []

def shell : Nat → List Text → Script Unit
  | 0, _ => stuck
  | fuel + 1, args => do
    let commands : Script Unit := do
      let (isText, operands) ← shellOptions false args
      match isText, operands with
      | true, t :: rest =>
        modify fun s => { s with name := rest.headD s.name, args := rest.drop 1 }
        runText fuel (Unread.ofText t)
      | true, [] => giveUp "-c requires an argument"
      | false, path :: rest =>
        match (← get).files.read (stringOf path) with
        | .ok content =>
          modify fun s => { s with name := path, args := rest }
          runText fuel (Unread.ofText (textOfBytes content))
        | .error _ => giveUp ("cannot open " ++ stringOf path ++ ": No such file")
      | false, [] => runInput fuel []
    try commands catch _ => pure ()
    let action := (← get).onExit
    modify fun s => { s with onExit := [] }
    if !action.isEmpty then
      try runText fuel (Unread.ofText action) catch _ => pure ()

end

end Execute
end Shell
end LiveDoc
